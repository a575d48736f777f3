import ClawWorks.Js.LowerCase
import ClawWorks.Lib.Outcome
import ClawWorks.Lib.TopLevel
import Mathlib.Data.List.Infix

/-!
# `oc://` paths

`oc://{file}[/{section}[/{item}[/{field}]]][?session={id}]` addresses a place in the workspace.

Unicode normalization is a parameter (`Nfc`).
-/

namespace ClawWorks

/-- Parsed `oc://` path. The slots behind the file keep the text of the path, with its quotes. -/
structure OcPath where
  file : JsString
  sectionSlot : Option JsString := none
  item : Option JsString := none
  field : Option JsString := none
  /-- Opaque, neither percent-decoded nor quoted. -/
  session : Option JsString := none
  deriving DecidableEq

namespace OcPath

/-! ## Characters -/

def QUOTE : UInt16 := 34
def DOT : UInt16 := 46
def SLASH : UInt16 := 47
def QUESTION : UInt16 := 63
def BACKSLASH : UInt16 := 92
def LBRACKET : UInt16 := 91
def RBRACKET : UInt16 := 93
def LBRACE : UInt16 := 123
def RBRACE : UInt16 := 125

/-- The byte order mark. -/
def BOM : UInt16 := 0xFEFF

def OC_SCHEME : JsString := js "oc://"
def REDACTED_SENTINEL : JsString := js "__OPENCLAW_REDACTED__"
def MAX_PATH_LENGTH : Nat := 4096
def MAX_SUB_SEGMENTS_PER_SLOT : Nat := 64
def MAX_TRAVERSAL_DEPTH : Nat := 256

variable (u : UInt16)

def isControl : Bool :=
  u ≤ 0x1F || u == 0x7F

variable (s : JsString)

def hasControlChar : Bool :=
  s.any isControl

/-- `[?&%]`. -/
def isReserved : Bool :=
  u == QUESTION || u == 38 || u == 37

/-- `[/.[\]{}?&%\s]`: what `quoteSeg` quotes. -/
def isStructure : Bool :=
  u == SLASH || u == DOT || u == LBRACKET || u == RBRACKET || u == LBRACE || u == RBRACE || isReserved u ||
    isWhiteSpace u

/-- `[/[\]{}?&%"\s]`: what has a file slot quoted. Dots are normal in file names. -/
def isFileStructure : Bool :=
  u == SLASH || u == LBRACKET || u == RBRACKET || u == LBRACE || u == RBRACE || isReserved u || u == QUOTE ||
    isWhiteSpace u

def hexDigit (n : Nat) : UInt16 :=
  (if n < 10 then 48 + n else 87 + n).toUInt16

/-- Render control characters as `\xNN`. -/
def printable : JsString :=
  s.flatMap fun u =>
    if isControl u then js "\\x" ++ [hexDigit (u.toNat / 16), hexDigit (u.toNat % 16)] else [u]

/-- Separators that neither change nor influence how their surroundings are normalized. -/
def isInert : Bool :=
  u == QUOTE || u == DOT || u == SLASH || u == QUESTION

/-- `String.prototype.normalize("NFC")`. -/
class Nfc where
  nfc : JsString → JsString
  idempotent : ∀ s, nfc (nfc s) = nfc s
  part : ∀ s t, nfc s = s → t <:+: s → nfc t = t
  join : ∀ s u t, isInert u = true → nfc s = s → nfc t = t → nfc (s ++ u :: t) = s ++ u :: t

export Nfc (nfc)

/-! ## Errors -/

/-- The stable tags of `OcPathError`. -/
inductive OcPathErrorCode
  | tooLong
  | missingScheme
  | controlChar
  | empty
  | emptySegment
  | absoluteFile
  | parentTraversal
  | tooDeep
  | unbalanced
  | emptySubSegment
  | unquotable
  | reservedChar
  | whitespace
  | malformedPredicate
  | malformedUnion
  | fileRequired
  | nesting
  deriving DecidableEq

structure OcPathError where
  message : JsString
  input : JsString
  code : OcPathErrorCode
  deriving DecidableEq

/-- What parsing and formatting throw. -/
inductive Failure
  | ocPath (error : OcPathError)
  /-- `OcEmitSentinelError`. -/
  | emitSentinel (path : JsString)
  deriving DecidableEq

/-- `fail(message, input, code)` where `refused` holds. -/
def refuse (refused : Prop) [Decidable refused] (message input : JsString) (code : OcPathErrorCode) :
    Except Failure Unit :=
  if refused then .error (.ocPath ⟨message, input, code⟩) else .ok ()

variable {message input : JsString} {code : OcPathErrorCode}

@[simp] theorem refuse_eq_ok_iff {refused : Prop} [Decidable refused] {u : Unit} :
    refuse refused message input code = .ok u ↔ ¬refused := by
  unfold refuse
  split <;> simp [*]

theorem refuse_of_not {refused : Prop} [Decidable refused] (h : ¬refused) :
    refuse refused message input code = .ok () :=
  if_neg h

@[simp] theorem refuse_false : refuse False message input code = .ok () := refuse_of_not not_false

/-! ## Brackets and quotes -/

structure ScanState where
  depthBracket : Int
  depthBrace : Int
  inQuote : Bool
  deriving DecidableEq

/-- The state behind a character and whether it stands at the top; none where a bracket is unbalanced. -/
def scanStep (state : ScanState) (c : UInt16) : Option (ScanState × Bool) :=
  if state.inQuote = true then some ({ state with inQuote := c != QUOTE }, false)
  else if c = QUOTE then some ({ state with inQuote := true }, false)
  else
    let depthBracket :=
      if c = LBRACKET then state.depthBracket + 1 else if c = RBRACKET then state.depthBracket - 1
      else state.depthBracket
    let depthBrace :=
      if c = LBRACE then state.depthBrace + 1 else if c = RBRACE then state.depthBrace - 1 else state.depthBrace
    if depthBracket < 0 ∨ depthBrace < 0 then none
    else some (⟨depthBracket, depthBrace, false⟩, depthBracket = 0 ∧ depthBrace = 0)

/-- `scanBracketAware`. -/
def bracketScanner : Scanner ScanState UInt16 where
  start := ⟨0, 0, false⟩
  step := scanStep

/-- First top-level occurrence of `ch` in `s`. -/
def indexOfTopLevel (ch : UInt16) : Except Failure (Option Nat) :=
  match bracketScanner.indexOf ch s with
  | some index => .ok index
  | none => .error (.ocPath ⟨js "Unbalanced bracket/brace in oc:// path: " ++ s, s, .unbalanced⟩)

def splitRespectingBrackets (delim : UInt16) (originalInput : JsString) : Except Failure (List JsString) :=
  match bracketScanner.split delim s with
  | some out => .ok out
  | none =>
    .error (.ocPath ⟨js "Unbalanced bracket/brace in oc:// path: " ++ originalInput, originalInput, .unbalanced⟩)

def startsWith (c : UInt16) : Bool :=
  s.head? == some c

def endsWith (c : UInt16) : Bool :=
  s.getLast? == some c

variable (seg : JsString)

/-- `seg.slice(1, -1)`. -/
def inside : JsString :=
  seg.tail.dropLast

/-- True iff `seg` is `"..."`. -/
def isQuotedSeg : Bool :=
  2 ≤ seg.length && startsWith seg QUOTE && endsWith seg QUOTE

/-- Strip surrounding quotes. Content is byte-literal. -/
def unquoteSeg : JsString :=
  if isQuotedSeg seg = true then inside seg else seg

/-- Refuses values with `"` or `\`: there is no escape mechanism. -/
def quoteSeg (value : JsString) : Except Failure JsString :=
  if value = [] then .ok (js "\"\"")
  else do
    refuse (QUOTE ∈ value ∨ BACKSLASH ∈ value)
      (js "Cannot quote value containing '\"' or '\\\\': " ++ printable value) value .unquotable
    return if value.any isStructure = true then quoted value else value

/-! ## Checks -/

/-- `/^[a-zA-Z]:/`. -/
def hasDrive : JsString → Bool
  | letter :: colon :: _ => ((65 ≤ letter && letter ≤ 90) || (97 ≤ letter && letter ≤ 122)) && colon == 58
  | _ => false

def validateFileSlot (file contextInput : JsString) : Except Failure Unit := do
  refuse (startsWith file SLASH = true ∨ startsWith file BACKSLASH = true ∨ hasDrive file = true)
    (js "Absolute file slot not allowed (oc:// paths are workspace-relative): " ++ printable contextInput)
    contextInput .absoluteFile
  refuse (js ".." ∈ file.splitOnP fun u => u == BACKSLASH || u == SLASH)
    (js "Parent-directory segment ('..') not allowed in oc:// file slot: " ++ printable contextInput)
    contextInput .parentTraversal
  refuse (hasControlChar file = true) (js "Control character in oc:// file slot: " ++ printable contextInput)
    contextInput .controlChar

def validateSessionSlot (session contextInput : JsString) : Except Failure Unit := do
  refuse (hasControlChar session = true)
    (js "Control character in oc:// session query: " ++ printable contextInput) contextInput .controlChar
  refuse (session.any isReserved = true)
    (js "Reserved character (`?` / `&` / `%`) in oc:// session query: " ++ printable contextInput) contextInput
    .reservedChar

/-- Defense-in-depth: stray brackets in segments the splitter did not split. -/
def validateBrackets (seg input : JsString) : Except Failure Unit :=
  refuse (¬bracketScanner.Clear [] seg)
    (js "Unbalanced bracket/brace in segment \"" ++ seg ++ js "\": " ++ printable input) input .unbalanced

/-- `PREDICATE_OPS`: multi-char tried before single-char. -/
def PREDICATE_OPS : List JsString :=
  [js "!=", js "<=", js ">=", js "<", js ">", js "="]

structure PredicateSpec where
  key : JsString
  op : JsString
  value : JsString

/-- `[key<op>value]`: the leftmost operator wins, with a value behind it. -/
def parsePredicateSeg : Option PredicateSpec :=
  if seg.length < 4 ∨ startsWith seg LBRACKET = false ∨ endsWith seg RBRACKET = false then none
  else
    let inner := inside seg
    (List.range' 1 (inner.length - 1)).findSome? fun i =>
      PREDICATE_OPS.findSome? fun op =>
        if op <+: inner.drop i ∧ i + op.length < inner.length then
          some ⟨inner.take i, op, inner.drop (i + op.length)⟩
        else none

/-- The value predicate does not read as `[key<op>value]`. -/
def isMalformedPredicate (sub : JsString) : Bool :=
  match parsePredicateSeg sub with
  | none => true
  | some parsed => parsed.key.isEmpty || parsed.value.isEmpty

/-- A predicate `[k<op>v]`, or a literal sentinel such as `[frontmatter]`. -/
def validateBracketSegment (sub input : JsString) : Except Failure Unit := do
  refuse (startsWith sub LBRACKET ≠ endsWith sub RBRACKET)
    (js "Mismatched bracket in segment \"" ++ sub ++ js "\": " ++ printable input) input .malformedPredicate
  if startsWith sub LBRACKET = true then
    refuse (inside sub = []) (js "Empty bracket segment \"" ++ sub ++ js "\": " ++ printable input) input
      .malformedPredicate
    refuse ((∃ op ∈ PREDICATE_OPS, op <:+: inside sub) ∧ isMalformedPredicate sub = true)
      (js "Malformed predicate \"" ++ sub ++
        js "\" — must be `[key<op>value]` with non-empty key and value: " ++ printable input) input
      .malformedPredicate

/-- A union `{a,b,c}`. -/
def validateBraceSegment (sub input : JsString) : Except Failure Unit := do
  refuse (startsWith sub LBRACE ≠ endsWith sub RBRACE)
    (js "Mismatched brace in segment \"" ++ sub ++ js "\": " ++ printable input) input .malformedUnion
  if startsWith sub LBRACE = true then
    refuse (inside sub = [])
      (js "Empty union \"" ++ sub ++ js "\" — must contain at least one alternative: " ++ printable input) input
      .malformedUnion
    refuse ([] ∈ (inside sub).splitOn 44)
      (js "Empty alternative in union \"" ++ sub ++ js "\": " ++ printable input) input .malformedUnion

/-- Reserved characters and white space are content inside a predicate or a union, and refused elsewhere. -/
def validatePlainSegment (sub input : JsString) : Except Failure Unit :=
  if startsWith sub LBRACKET = false ∧ startsWith sub LBRACE = false then do
    refuse (sub.any isReserved = true)
      (js "Reserved character (`?` / `&` / `%`) in oc:// segment \"" ++ sub ++ js "\": " ++ printable input) input
      .reservedChar
    refuse (sub ≠ trim sub ∨ sub.any isWhiteSpace = true)
      (js "Whitespace in oc:// segment \"" ++ sub ++ js "\": " ++ printable input) input .whitespace
  else .ok ()

def validateSubSegment (sub input : JsString) : Except Failure Unit := do
  refuse (sub = []) (js "Empty dotted sub-segment in oc:// path: " ++ printable input) input .emptySubSegment
  refuse (hasControlChar sub = true)
    (js "Control character in oc:// segment \"" ++ printable sub ++ js "\": " ++ printable input) input .controlChar
  if isQuotedSeg sub = true then
    refuse (QUOTE ∈ inside sub ∨ BACKSLASH ∈ inside sub)
      (js "Quoted segment cannot contain '\"' or '\\\\': " ++ printable sub) input .unquotable
  else
    validatePlainSegment sub input
    validateBracketSegment sub input
    validateBraceSegment sub input

/-! ## Parsing -/

/-- The first non-empty `session=` among the pairs of a query. -/
def firstSession (input : JsString) : List JsString → Except Failure (Option JsString)
  | [] => .ok none
  | pair :: pairs =>
    -- a pair without `=` is none of the cases
    if 61 ∈ pair ∧ pair.takeWhile (· ≠ 61) = js "session" ∧ (pair.dropWhile (· ≠ 61)).tail ≠ [] then do
      validateSessionSlot (pair.dropWhile (· ≠ 61)).tail input
      return some (pair.dropWhile (· ≠ 61)).tail
    else firstSession input pairs

def extractSession (queryPart input : JsString) : Except Failure (Option JsString) :=
  if queryPart = [] then .ok none else firstSession input (queryPart.splitOn 38)

section Parsing

variable [LowerCase]

def isJsonPathFile (file : JsString) : Bool :=
  js ".json" <:+ toLowerCase file || js ".jsonc" <:+ toLowerCase file

def normalizeDeepJsonPathSegments (segments : List JsString) (file input : JsString) :
    Except Failure (List JsString) :=
  if segments.length ≤ 4 ∨ isJsonPathFile file = false then .ok segments
  else do
    let pathSegments := segments.tail
    refuse (MAX_TRAVERSAL_DEPTH < pathSegments.length)
      (js "JSON oc:// path exceeds " ++ js (toString MAX_TRAVERSAL_DEPTH) ++ js " nested segments: " ++
        printable input) input .tooDeep
    return [segments.headD [], [DOT].intercalate (pathSegments.take (pathSegments.length - 2)),
      pathSegments.getD (pathSegments.length - 2) [], pathSegments.getD (pathSegments.length - 1) []]

def validateSegment (input seg : JsString) : Except Failure Unit := do
  validateBrackets seg input
  let subs ← splitRespectingBrackets seg DOT input
  refuse (MAX_SUB_SEGMENTS_PER_SLOT < subs.length)
    (js "Sub-segment count exceeds " ++ js (toString MAX_SUB_SEGMENTS_PER_SLOT) ++ js " in segment \"" ++ seg ++
      js "\": " ++ printable input) input .tooDeep
  subs.forM fun sub => validateSubSegment sub input

def cutQuery (afterScheme : JsString) : Option Nat → JsString × JsString
  | none => (afterScheme, [])
  | some queryIndex => (afterScheme.take queryIndex, afterScheme.drop (queryIndex + 1))

variable [Nfc]

/-- Parse an `oc://` path string into a structured `OcPath`. -/
def parseOcPath (input : JsString) : Except Failure OcPath := do
  refuse (MAX_PATH_LENGTH < input.length)
    (js "oc:// path exceeds " ++ js (toString MAX_PATH_LENGTH) ++ js " bytes (length: " ++
      js (toString input.length) ++ js ")") (input.take 80 ++ js "…") .tooLong
  let normalized := nfc (if startsWith input BOM = true then input.tail else input)
  refuse (MAX_PATH_LENGTH < normalized.length)
    (js "oc:// path exceeds " ++ js (toString MAX_PATH_LENGTH) ++ js " bytes after NFC (length: " ++
      js (toString normalized.length) ++ js ")") (input.take 80 ++ js "…") .tooLong
  refuse (¬OC_SCHEME <+: normalized) (js "Missing oc:// scheme: " ++ printable input) input .missingScheme
  refuse (hasControlChar normalized = true) (js "Control character in oc:// path: " ++ printable input) input
    .controlChar
  let afterScheme := normalized.drop OC_SCHEME.length
  let queryIndex ← indexOfTopLevel afterScheme QUESTION
  let (pathPart, queryPart) := cutQuery afterScheme queryIndex
  refuse (pathPart = []) (js "Empty oc:// path: " ++ printable input) input .empty
  let rawSegments ← splitRespectingBrackets pathPart SLASH input
  refuse ([] ∈ rawSegments) (js "Empty segment in oc:// path: " ++ printable input) input .emptySegment
  let file := unquoteSeg (rawSegments.headD [])
  validateFileSlot file input
  let segments ← normalizeDeepJsonPathSegments rawSegments file input
  refuse (4 < segments.length) (js "Too many segments in oc:// path (max 4): " ++ printable input) input .tooDeep
  segments.forM (validateSegment input)
  let session ← extractSession queryPart input
  return { file, sectionSlot := segments[1]?, item := segments[2]?, field := segments[3]?, session }

end Parsing

/-! ## Formatting -/

/-- What is in structural form passes through; raw sub-segments are quoted where they need it. -/
def formatSubSegment (sub : JsString) : Except Failure JsString :=
  if isQuotedSeg sub = true then .ok sub
  else if startsWith sub LBRACKET = true ∧ endsWith sub RBRACKET = true then .ok sub
  else if startsWith sub LBRACE = true ∧ endsWith sub RBRACE = true then .ok sub
  else quoteSeg sub

def validateSubForFormat (file slotName sub : JsString) : Except Failure Unit := do
  refuse (sub = []) (js "Empty dotted sub-segment in OcPath." ++ slotName) file .emptySubSegment
  refuse (hasControlChar sub = true)
    (js "Control character in OcPath." ++ slotName ++ js " sub-segment \"" ++ printable sub ++ js "\"") file
    .controlChar

def formatSlot (file slot slotName : JsString) : Except Failure JsString := do
  let subs ← splitRespectingBrackets slot DOT slot
  subs.forM (validateSubForFormat file slotName)
  let formatted ← subs.mapM formatSubSegment
  return [DOT].intercalate formatted

/-- `"/" + formatSlot(…)` for a slot that is there. -/
def formatOptionalSlot (file slotName : JsString) : Option JsString → Except Failure JsString
  | none => .ok []
  | some slot => do
    let formatted ← formatSlot file slot slotName
    return SLASH :: formatted

/-- Only a file that would parse as structure is quoted. -/
def formatFile (file : JsString) : Except Failure JsString :=
  if file.any isFileStructure = true then quoteSeg file else .ok file

def formatSession (file : JsString) : Option JsString → Except Failure JsString
  | none => .ok []
  | some session => do
    validateSessionSlot session file
    return js "?session=" ++ session

/-- Format an `OcPath` struct into its canonical string form. -/
def formatOcPath (path : OcPath) : Except Failure JsString := do
  refuse (path.file = []) (js "oc:// path requires a file") [] .fileRequired
  validateFileSlot path.file path.file
  refuse (path.item ≠ none ∧ path.sectionSlot = none) (js "Structural nesting violation: item requires section")
    path.file .nesting
  refuse (path.field ≠ none ∧ path.item = none) (js "Structural nesting violation: field requires item") path.file
    .nesting
  let formattedFile ← formatFile path.file
  let formattedSection ← formatOptionalSlot path.file (js "section") path.sectionSlot
  let formattedItem ← formatOptionalSlot path.file (js "item") path.item
  let formattedField ← formatOptionalSlot path.file (js "field") path.field
  let query ← formatSession path.file path.session
  let out := OC_SCHEME ++ formattedFile ++ formattedSection ++ formattedItem ++ formattedField ++ query
  refuse (MAX_PATH_LENGTH < out.length)
    (js "Formatted oc:// exceeds " ++ js (toString MAX_PATH_LENGTH) ++ js " bytes (length: " ++
      js (toString out.length) ++ js ")") (out.take 80 ++ js "…") .tooLong
  -- paths flow into telemetry and error messages, which must not carry the redaction sentinel
  if REDACTED_SENTINEL <:+: out then .error (.emitSentinel out) else .ok out

end OcPath

end ClawWorks
