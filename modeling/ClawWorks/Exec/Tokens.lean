import ClawWorks.Agents.ToolPolicy

/-!
# Tokens of a command line

An argument vector is a list of texts, the executable first.
-/

namespace ClawWorks.Exec

/-- An argument vector. -/
abbrev Argv := List JsString

/-- `=`. -/
def EQUALS : UInt16 := 61

/-- `/`. -/
def SLASH : UInt16 := 47

/-- `\`. -/
def BACKSLASH : UInt16 := 92

/-- `'`. -/
def SINGLE_QUOTE : UInt16 := 39

/-- `"`. -/
def DOUBLE_QUOTE : UInt16 := 34

/-- `[A-Za-z]`. -/
def isLetter (u : UInt16) : Bool :=
  (65 ≤ u && u ≤ 90) || (97 ≤ u && u ≤ 122)

/-- `[A-Za-z0-9_]`. -/
def isWordUnit (u : UInt16) : Bool :=
  isLetter u || isDigit u || u == 95

/-- `argv[index]`, with the empty text where there is none. -/
def argvAt (argv : Argv) (index : Nat) : JsString :=
  argv[index]?.getD []

/-- `argv[index]?.trim() ?? ""`. -/
def trimmedAt (argv : Argv) (index : Nat) : JsString :=
  trim (argvAt argv index)

/-- `token.startsWith("-")`. -/
def startsWithDash (token : JsString) : Bool :=
  token.head? == some DASH

/-- `!token.startsWith("-") || token === "-"`. -/
def isOperand (token : JsString) : Bool :=
  !startsWithDash token || token == [DASH]

/-! ## Executables -/

def basename (isSeparator : UInt16 → Bool) (path : JsString) : JsString :=
  (path.rdropWhile isSeparator).rtakeWhile fun u => !isSeparator u

/-- `path.posix.basename`. -/
def posixBasename (token : JsString) : JsString :=
  basename (· == SLASH) token

def startsWithDrive : JsString → Bool
  | letter :: colon :: _ => isLetter letter && colon == 58
  | _ => false

/-- `path.win32.basename`. -/
def win32Basename (token : JsString) : JsString :=
  basename (fun u => u == SLASH || u == BACKSLASH) (if startsWithDrive token then token.drop 2 else token)

def WINDOWS_EXECUTABLE_SUFFIXES : List JsString :=
  [js ".exe", js ".cmd", js ".bat", js ".com"]

def stripWindowsExecutableSuffix (value : JsString) : JsString :=
  match WINDOWS_EXECUTABLE_SUFFIXES.find? (·.isSuffixOf value) with
  | some ending => value.take (value.length - ending.length)
  | none => value

section

variable [LowerCase]

/-- The shorter of the two readings of a path, in lower case. -/
def basenameLower (token : JsString) : JsString :=
  let win := win32Basename token
  let posix := posixBasename token
  normalizeLowercaseStringOrEmpty (if win.length < posix.length then win else posix)

/-- The name an executable is looked up by. -/
def normalizeExecutableToken (token : JsString) : JsString :=
  stripWindowsExecutableSuffix (basenameLower token)

end

/-- An option token: its name, and the value after the first `=`. -/
structure InlineOptionToken where
  name : JsString
  inlineValue : Option JsString

def InlineOptionToken.hasInlineValue (option : InlineOptionToken) : Bool :=
  option.inlineValue.isSome

def parseInlineOptionToken (token : JsString) : InlineOptionToken where
  name := token.takeWhile (· != EQUALS)
  inlineValue := (token.dropWhile (· != EQUALS)).tail?

def DOUBLE_QUOTE_ESCAPES : List UInt16 :=
  [BACKSLASH, DOUBLE_QUOTE, 36, 96, 10, 13]

/-- How far the words are read. -/
structure ShellWords where
  tokens : List JsString := []
  buf : JsString := []
  inSingle : Bool := false
  inDouble : Bool := false
  escaped : Bool := false

def ShellWords.pushToken (words : ShellWords) : ShellWords :=
  if words.buf.length > 0 then { words with tokens := words.tokens ++ [words.buf], buf := [] } else words

/-- The words, unless an escape or a quotation is left open. -/
def ShellWords.finish (words : ShellWords) : Option (List JsString) :=
  if words.escaped || words.inSingle || words.inDouble then none else some words.pushToken.tokens

def splitShellArgsFrom : JsString → ShellWords → Option (List JsString)
  | [], words => words.finish
  | ch :: raw, words =>
    if words.escaped then splitShellArgsFrom raw { words with buf := words.buf ++ [ch], escaped := false }
    else if !words.inSingle && !words.inDouble && ch == BACKSLASH then
      splitShellArgsFrom raw { words with escaped := true }
    else if words.inSingle then
      if ch == SINGLE_QUOTE then splitShellArgsFrom raw { words with inSingle := false }
      else splitShellArgsFrom raw { words with buf := words.buf ++ [ch] }
    else if words.inDouble then
      match raw with
      | next :: rest =>
        if ch == BACKSLASH && DOUBLE_QUOTE_ESCAPES.contains next then
          splitShellArgsFrom rest { words with buf := words.buf ++ [next] }
        else if ch == DOUBLE_QUOTE then splitShellArgsFrom (next :: rest) { words with inDouble := false }
        else splitShellArgsFrom (next :: rest) { words with buf := words.buf ++ [ch] }
      | [] =>
        if ch == DOUBLE_QUOTE then splitShellArgsFrom [] { words with inDouble := false }
        else splitShellArgsFrom [] { words with buf := words.buf ++ [ch] }
    else if ch == SINGLE_QUOTE then splitShellArgsFrom raw { words with inSingle := true }
    else if ch == DOUBLE_QUOTE then splitShellArgsFrom raw { words with inDouble := true }
    -- A `#` that begins a word starts a comment.
    else if ch == 35 && words.buf.length == 0 then words.finish
    else if isWhiteSpace ch then splitShellArgsFrom raw words.pushToken
    else splitShellArgsFrom raw { words with buf := words.buf ++ [ch] }

def splitShellArgs (raw : JsString) : Option (List JsString) :=
  splitShellArgsFrom raw {}

example : splitShellArgs (js "a 'b c' \"d\\\"e\" # f") = some [js "a", js "b c", js "d\"e"] := by decide +kernel

end ClawWorks.Exec
