import ClawWorks.Js.Patterns

/-!
# Windows shell commands

Analysis and rebuilding of commands for Windows.
-/

namespace ClawWorks.WindowsShell

def QUOTE : UInt16 := 34
def SINGLE_QUOTE : UInt16 := 39
def DOLLAR : UInt16 := 36
def SPACE : UInt16 := 32
def NEWLINE : UInt16 := 10
def CARRIAGE_RETURN : UInt16 := 13

/-- `[A-Za-z0-9_]`. -/
def isWordUnit (u : UInt16) : Bool :=
  isAlphanumeric u || u == 95

def WINDOWS_UNSUPPORTED_TOKENS : JsString :=
  js "&|<>;^()%!\x60\n\r"

def WINDOWS_ALWAYS_UNSAFE_TOKENS : JsString :=
  js "\n\r%\x60"

/-- `/[A-Za-z_{(?$]/`: what makes a dollar before it an expansion. -/
def startsExpansion (u : UInt16) : Bool :=
  (97 ≤ u && u ≤ 122) || (65 ≤ u && u ≤ 90) || (js "_\x7b(?$").contains u

def scanUnsupported (inDouble : Bool) : JsString → Option JsString
  | [] => none
  | ch :: rest =>
    if ch = QUOTE then scanUnsupported (!inDouble) rest
    else if ch = DOLLAR then
      if rest.head?.any startsExpansion then some [DOLLAR] else scanUnsupported inDouble rest
    else if WINDOWS_UNSUPPORTED_TOKENS.contains ch then
      if inDouble && !WINDOWS_ALWAYS_UNSAFE_TOKENS.contains ch then scanUnsupported inDouble rest
      else if ch = NEWLINE ∨ ch = CARRIAGE_RETURN then some (js "newline")
      else some [ch]
    else scanUnsupported inDouble rest

def findWindowsUnsupportedToken (command : JsString) : Option JsString :=
  scanUnsupported false command

structure Tokenizer where
  tokens : List JsString
  buf : JsString
  inDouble : Bool
  inSingle : Bool
  wasQuoted : Bool

def Tokenizer.pushToken (t : Tokenizer) : Tokenizer :=
  if t.buf ≠ [] ∨ t.wasQuoted then { t with tokens := t.tokens ++ [t.buf], buf := [], wasQuoted := false }
  else { t with wasQuoted := false }

def Tokenizer.finish (t : Tokenizer) : Option (List JsString) :=
  if t.inDouble || t.inSingle then none
  else if t.pushToken.tokens = [] then none
  else some t.pushToken.tokens

/-- A single quote that is doubled inside single quotes takes two units. -/
def Tokenizer.read (t : Tokenizer) : JsString → Option (List JsString)
  | [] => t.finish
  | ch :: rest =>
    if ch = QUOTE ∧ t.inSingle = false then
      Tokenizer.read { t with wasQuoted := t.wasQuoted || !t.inDouble, inDouble := !t.inDouble } rest
    else if ch = SINGLE_QUOTE ∧ t.inDouble = false then
      match rest with
      | next :: rest' =>
        if t.inSingle ∧ next = SINGLE_QUOTE then Tokenizer.read { t with buf := t.buf ++ [SINGLE_QUOTE] } rest'
        else
          Tokenizer.read { t with wasQuoted := t.wasQuoted || !t.inSingle, inSingle := !t.inSingle } (next :: rest')
      | [] => Tokenizer.read { t with wasQuoted := t.wasQuoted || !t.inSingle, inSingle := !t.inSingle } []
    else if !t.inDouble && !t.inSingle && isWhiteSpace ch then Tokenizer.read t.pushToken rest
    else Tokenizer.read { t with buf := t.buf ++ [ch] } rest

/-- `none` where a quote is left open, or nothing is there. -/
def tokenizeWindowsSegment (segment : JsString) : Option (List JsString) :=
  Tokenizer.read { tokens := [], buf := [], inDouble := false, inSingle := false, wasQuoted := false } segment

/-! ## Wrappers -/

open Matcher

def spaces : Matcher UInt16 :=
  plus (unit isWhiteSpace)

/-- `\b` behind a word unit. -/
def wordEnds : Matcher UInt16 :=
  notAhead (unit isWordUnit)

/-- `q[^q]*(?:qq[^q]*)*q`. -/
def quotedValue (q : UInt16) : Matcher UInt16 :=
  seq (unit (· == q)) <| seq (star (unit (· != q))) <|
    seq (star (seq (unit (· == q)) <| seq (unit (· == q)) (star (unit (· != q))))) (unit (· == q))

def psFlag : Matcher UInt16 :=
  seq (keyword "-") <| seq (notAhead <|
      alt (seq (keyword "c") (seq (opt (keyword "ommand")) wordEnds)) (seq (keyword "-command") wordEnds)) <|
    seq (plus (unit isWordUnit)) <|
    seq (opt (seq spaces <| seq (notAhead (keyword "-")) <|
      alt (quotedValue QUOTE) (alt (quotedValue SINGLE_QUOTE) (plus (unit (!isWhiteSpace ·)))))) spaces

/-- `^(?:powershell|pwsh)(?:\.exe)?\s+`, the flags, the command flag, `\s+`. -/
def psInvocation : Matcher UInt16 :=
  seq (alt (keyword "powershell") (keyword "pwsh")) <| seq (opt (keyword ".exe")) <| seq spaces <| seq (star psFlag) <|
    seq (alt (keyword "-command") (alt (keyword "-c") (keyword "--command"))) spaces

/-- `q(.+)q$`. -/
def quotedBody (q : UInt16) (rest : JsString) : Option JsString :=
  if rest.head? = some q ∧ rest.getLast? = some q ∧ 2 < rest.length then some (rest.drop 1).dropLast else none

/-- `replace(/qq/g, q)`. -/
def collapseDoubled (q : UInt16) : JsString → JsString
  | [] => []
  | [u] => [u]
  | u :: v :: rest =>
    if u = q ∧ v = q then q :: collapseDoubled q rest else u :: collapseDoubled q (v :: rest)

def stripWindowsShellWrapperOnce (command : JsString) : JsString :=
  match (seq (keyword "&") spaces command).find? (· ≠ []) with
  | some body => body
  | none =>
    match (psInvocation command).findSome? (quotedBody QUOTE) with
    | some body => collapseDoubled QUOTE body
    | none =>
      match (psInvocation command).findSome? (quotedBody SINGLE_QUOTE) with
      | some body => collapseDoubled SINGLE_QUOTE body
      | none =>
        match (psInvocation command).find? (· ≠ []) with
        | some body => body
        | none => command

/-- At most as many rounds, until one changes nothing. -/
def stripRounds : Nat → JsString → JsString
  | 0, result => result
  | n + 1, result =>
    let next := stripWindowsShellWrapperOnce (trim result)
    if next = result then next else stripRounds n next

def stripWindowsShellWrapper (command : JsString) : JsString :=
  stripRounds 5 command

inductive Analysis
  | unsupported (token : JsString)
  | unparsed
  | ok (argv : List JsString)
  deriving DecidableEq

def analyzeWindowsShellCommand (command : JsString) : Analysis :=
  let effective := stripWindowsShellWrapper (trim command)
  match findWindowsUnsupportedToken effective with
  | some token => .unsupported token
  | none =>
    match tokenizeWindowsSegment effective with
    | none => .unparsed
    | some argv => .ok argv

/-! ## Rebuilding -/

/-- ``/[%`]|\$(?=[A-Za-z_{(?$])/``. -/
def hasUnsafeCmdMeta : JsString → Bool
  | [] => false
  | u :: rest => u == 37 || u == 96 || (u == DOLLAR && rest.head?.any startsExpansion) || hasUnsafeCmdMeta rest

/-- `[a-zA-Z0-9_./:~\\=-]`. -/
def isPlainUnit (u : UInt16) : Bool :=
  isAlphanumeric u || (js "_./:~\\=-").contains u

def doubleQuotes (value : JsString) : JsString :=
  value.flatMap fun u => if u = QUOTE then [QUOTE, QUOTE] else [u]

/-- `none` where the value cannot be escaped. -/
def windowsEscapeArg (value : JsString) : Option JsString :=
  if value = [] then some [QUOTE, QUOTE]
  else if hasUnsafeCmdMeta value then none
  else if value.all isPlainUnit then some value
  else some (QUOTE :: doubleQuotes value ++ [QUOTE])

/-- The resolution of a segment, as far as the plan reads it. -/
structure ExecCommandSegment where
  argv : List JsString
  policyBlocked : Bool
  effectiveArgv : Option (List JsString)
  resolvedRealPath : Option JsString
  resolvedPath : Option JsString

def resolvePlannedSegmentArgv (segment : ExecCommandSegment) : Option (List JsString) :=
  if segment.policyBlocked then none
  else
    let baseArgv := match segment.effectiveArgv with
      | some (first :: rest) => first :: rest
      | _ => segment.argv
    let resolvedExecutable := ((segment.resolvedRealPath.map trim).or (segment.resolvedPath.map trim)).getD []
    match baseArgv with
    | [] => none
    | first :: rest => some ((if resolvedExecutable ≠ [] then resolvedExecutable else first) :: rest)

/-- `parts.join(" ")`. -/
def joinSpaced : List JsString → JsString
  | [] => []
  | [part] => part
  | part :: next :: parts => part ++ SPACE :: joinSpaced (next :: parts)

def renderWindowsQuotedArgv (argv : List JsString) : Except JsString JsString :=
  match argv.find? (windowsEscapeArg · = none) with
  | some token => .error (js "unsafe windows token: " ++ token)
  | none => .ok (joinSpaced (argv.filterMap windowsEscapeArg))

def rebuildWindowsShellCommandFromSource (command : JsString) (renderSegment : Nat → Except JsString JsString) :
    Except JsString (JsString × Nat) :=
  let source := stripWindowsShellWrapper (trim command)
  if source = [] then .error (js "empty command")
  else
    match findWindowsUnsupportedToken source with
    | some token => .error (js "unsupported windows shell token: " ++ token)
    | none => (renderSegment 0).map fun rendered => (js "& " ++ rendered, 1)

def buildEnforcedShellCommand (command : JsString) (segments : List ExecCommandSegment) (platform : JsString) :
    Except JsString JsString :=
  if platform ≠ js "win32" then .error (js "unsupported platform")
  else
    let rebuilt := rebuildWindowsShellCommandFromSource command fun segmentIndex =>
      match segments[segmentIndex]? with
      | none => .error (js "segment mapping failed")
      | some segment =>
        match resolvePlannedSegmentArgv segment with
        | none => .error (js "segment execution plan unavailable")
        | some argv => renderWindowsQuotedArgv argv
    match rebuilt with
    | .error reason => .error reason
    | .ok (command, segmentCount) =>
      if segmentCount ≠ segments.length then .error (js "segment count mismatch") else .ok command

end ClawWorks.WindowsShell
