import ClawWorks.Agents.ToolPolicy

/-!
# Names of bundled MCP servers

Provider tool names have to fit the limits of model-facing schemas, so the key of a server is sanitized, cut to its
budget, and told apart from the names already used by a numbered suffix.
-/

namespace ClawWorks

/-- Characters a server may claim in a materialized tool name. -/
def TOOL_NAME_MAX_PREFIX : Nat := 30

/-- `[A-Za-z]`. -/
def isAsciiLetter (u : UInt16) : Bool :=
  (65 ≤ u && u ≤ 90) || (97 ≤ u && u ≤ 122)

/-- `[A-Za-z0-9_-]`. -/
def isToolNameSafe (u : UInt16) : Bool :=
  isAsciiLetter u || isDigit u || u = 95 || u = DASH

/-- A fragment of a provider-safe name. -/
def sanitizeToolFragment (raw fallback : JsString) (maxChars : Option Nat) : JsString :=
  let cleaned := (trim raw).map fun u => if isToolNameSafe u then u else DASH
  let normalized := if cleaned = [] then fallback else cleaned
  let providerSafe := if normalized.head?.any isAsciiLetter then normalized else fallback ++ js "-" ++ normalized
  match maxChars with
  | none => providerSafe
  | some maxChars => providerSafe.take maxChars

/-- The name tried in round `n` for a base that is taken. -/
def numberedName (base : JsString) (n : Nat) : JsString :=
  let suffix := js "-" ++ js (toString n)
  base.take (max 1 (TOOL_NAME_MAX_PREFIX - suffix.length)) ++ suffix

/-- One MCP server name: the first candidate that is not used yet. One round more than there are used names is enough,
since the candidates differ. -/
def sanitizeServerName [LowerCase] (raw : JsString) (usedNames : List JsString) : JsString :=
  let base := sanitizeToolFragment raw (js "mcp") (some TOOL_NAME_MAX_PREFIX)
  let candidates := base :: (List.range usedNames.length).map fun i => numberedName base (i + 2)
  (candidates.find? fun candidate => normalizeLowercaseStringOrEmpty candidate ∉ usedNames).getD base

theorem sanitizeServerName_nil [LowerCase] (raw : JsString) :
    sanitizeServerName raw [] = sanitizeToolFragment raw (js "mcp") (some TOOL_NAME_MAX_PREFIX) := by
  simp [sanitizeServerName]

end ClawWorks
