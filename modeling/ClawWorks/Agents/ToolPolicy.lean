import ClawWorks.Js.LowerCase
import ClawWorks.Js.Object
import ClawWorks.Lib.Glob
import Mathlib.Data.List.Infix

/-!
# Tool policies

The matcher behind every tool selector: entries are normalized, tool groups are expanded, and what is left is compiled
to patterns. Entries that compile to nothing leave no pattern behind, and an empty allow list allows everything.
-/

namespace ClawWorks

open JsMap List

/-! ## The core tool catalog -/

structure CoreToolDefinition where
  id : JsString
  sectionId : JsString
  includeInOpenClawGroup : Bool

def CORE_TOOL_DEFINITIONS : List CoreToolDefinition :=
  [ ⟨js "read", js "fs", false⟩, ⟨js "write", js "fs", false⟩,
    ⟨js "edit", js "fs", false⟩, ⟨js "apply_patch", js "fs", false⟩,
    ⟨js "exec", js "runtime", false⟩, ⟨js "process", js "runtime", false⟩,
    ⟨js "code_execution", js "runtime", true⟩, ⟨js "web_search", js "web", true⟩,
    ⟨js "web_fetch", js "web", true⟩, ⟨js "x_search", js "web", true⟩,
    ⟨js "memory_search", js "memory", true⟩, ⟨js "memory_get", js "memory", true⟩,
    ⟨js "sessions_list", js "sessions", true⟩, ⟨js "sessions_history", js "sessions", true⟩,
    ⟨js "sessions_send", js "sessions", true⟩, ⟨js "sessions_spawn", js "sessions", true⟩,
    ⟨js "sessions_yield", js "sessions", true⟩, ⟨js "subagents", js "sessions", true⟩,
    ⟨js "session_status", js "sessions", true⟩, ⟨js "browser", js "ui", true⟩,
    ⟨js "canvas", js "ui", false⟩, ⟨js "message", js "messaging", true⟩,
    ⟨js "heartbeat_respond", js "automation", true⟩, ⟨js "cron", js "automation", true⟩,
    ⟨js "gateway", js "automation", true⟩, ⟨js "nodes", js "nodes", true⟩,
    ⟨js "agents_list", js "agents", true⟩, ⟨js "complete_step", js "workflow", true⟩,
    ⟨js "reopen_step", js "workflow", true⟩, ⟨js "knowledge_search", js "enterprise", false⟩,
    ⟨js "search_objects", js "enterprise", false⟩, ⟨js "get_neighbors", js "enterprise", false⟩,
    ⟨js "compute_function", js "enterprise", false⟩, ⟨js "invoke_action", js "enterprise-write", false⟩,
    ⟨js "get_goal", js "agents", true⟩, ⟨js "create_goal", js "agents", true⟩,
    ⟨js "update_goal", js "agents", true⟩, ⟨js "update_plan", js "agents", true⟩,
    ⟨js "skill_workshop", js "agents", true⟩, ⟨js "image", js "media", true⟩,
    ⟨js "image_generate", js "media", true⟩, ⟨js "music_generate", js "media", true⟩,
    ⟨js "video_generate", js "media", true⟩, ⟨js "tts", js "media", true⟩]

def TOOL_GROUPS : PlainObject (List JsString) :=
  CORE_TOOL_DEFINITIONS.foldl (fun groups tool =>
      let groupId := js "group:" ++ tool.sectionId
      groups.set groupId ((groups.get groupId).getD [] ++ [tool.id]))
    [(js "group:openclaw", (CORE_TOOL_DEFINITIONS.filter (·.includeInOpenClawGroup)).map (·.id))]

def TOOL_NAME_ALIASES : PlainObject JsString :=
  [(js "bash", js "exec"), (js "apply-patch", js "apply_patch")]

/-- `*`. -/
def STAR : UInt16 := 42

/-- A lower-case tool id: it normalizes to itself, and neither a star nor the delimiter of an MCP name is in it. -/
structure PlainToolId (id : JsString) : Prop where
  lower : ∀ u ∈ id, u < 128 ∧ asciiLower u = u
  trimmed : trim id = id
  ne_nil : id ≠ []
  unaliased : TOOL_NAME_ALIASES.read id = .undefined
  no_star : STAR ∉ id
  no_delimiter : ¬ js "__" <:+: id

instance (id : JsString) : Decidable (PlainToolId id) :=
  decidable_of_iff
    ((∀ u ∈ id, u < 128 ∧ asciiLower u = u) ∧ trim id = id ∧ id ≠ [] ∧ TOOL_NAME_ALIASES.read id = .undefined ∧
      STAR ∉ id ∧ ¬ js "__" <:+: id)
    ⟨fun ⟨a, b, c, d, e, f⟩ => ⟨a, b, c, d, e, f⟩, fun ⟨a, b, c, d, e, f⟩ => ⟨a, b, c, d, e, f⟩⟩

theorem toolTables_plain :
    (∀ entry ∈ TOOL_GROUPS, (58 : UInt16) ∈ entry.1 ∧ ¬ js "proto" <:+: entry.1 ∧ entry.2 ≠ [] ∧
      ∀ id ∈ entry.2, PlainToolId id) ∧
    ∀ entry ∈ TOOL_NAME_ALIASES, PlainToolId entry.2 ∧ get TOOL_GROUPS entry.2 = none := by
  decide +kernel

/-! ## Normalization -/

variable [LowerCase]

/-- Trimmed and lower-cased. -/
def normalizeLowercaseStringOrEmpty (value : JsString) : JsString :=
  if trim value = [] then [] else toLowerCase (trim value)

/-- A normalized name: a text, unless the alias lookup found an inherited member. -/
inductive NormalizedName
  | text (value : JsString)
  | member (inherited : InheritedMember)
  deriving DecidableEq

/-- `String(name)`. -/
def NormalizedName.toText : NormalizedName → JsString
  | .text value => value
  | .member inherited => inherited.text

def normalizeToolName (name : JsString) : NormalizedName :=
  let normalized := normalizeLowercaseStringOrEmpty name
  match TOOL_NAME_ALIASES.read normalized with
  | .own policyId => .text policyId
  | .inherited member => .member member
  | .undefined => .text normalized

/-- A group id stands for its tools. No member of `Object.prototype` is looked up here: the alias lookup found it. -/
def expandToolGroup (value : NormalizedName) : List NormalizedName :=
  match value with
  | .text id =>
    match get TOOL_GROUPS id with
    | some group => group.map .text
    | none => [value]
  | .member _ => [value]

def expandToolGroups (list : List JsString) : List NormalizedName :=
  (((list.map normalizeToolName).filter (· ≠ .text [])).flatMap expandToolGroup).eraseDups

theorem normalizeLowercaseStringOrEmpty_idem (value : JsString) :
    normalizeLowercaseStringOrEmpty (normalizeLowercaseStringOrEmpty value) =
      normalizeLowercaseStringOrEmpty value := by
  by_cases hvalue : trim value = []
  · have hempty : normalizeLowercaseStringOrEmpty value = [] := if_pos hvalue
    rw [hempty]
    rfl
  · have hnormal : normalizeLowercaseStringOrEmpty value = toLowerCase (trim value) := if_neg hvalue
    rw [hnormal]
    unfold normalizeLowercaseStringOrEmpty
    rw [LowerCase.trimmed, LowerCase.idempotent]
    split
    · rename_i hempty
      exact hempty.symm
    · rfl

theorem normalizeLowercase_of_lower {s : JsString} (hlower : ∀ u ∈ s, u < 128 ∧ asciiLower u = u)
    (htrim : trim s = s) : normalizeLowercaseStringOrEmpty s = s := by
  unfold normalizeLowercaseStringOrEmpty
  rw [htrim, toLowerCase_of_lower hlower]
  split
  · rename_i hempty
    exact hempty.symm
  · rfl

theorem normalizeLowercase_of_ne_nil {value : JsString} (h : normalizeLowercaseStringOrEmpty value ≠ []) :
    normalizeLowercaseStringOrEmpty value = toLowerCase (trim value) :=
  if_neg fun hempty => h (if_pos hempty)

theorem PlainToolId.normalize {id : JsString} (h : PlainToolId id) : normalizeToolName id = .text id := by
  rw [normalizeToolName, normalizeLowercase_of_lower h.lower h.trimmed, h.unaliased]

variable {name : JsString}

theorem normalizeToolName_text {text : JsString} (h : normalizeToolName name = .text text) :
    (PlainToolId text ∧ get TOOL_GROUPS text = none) ∨
      (text = normalizeLowercaseStringOrEmpty name ∧ TOOL_NAME_ALIASES.read text = .undefined) := by
  unfold normalizeToolName at h
  simp only at h
  cases hread : TOOL_NAME_ALIASES.read (normalizeLowercaseStringOrEmpty name) with
  | own policyId =>
    rw [hread] at h
    injection h with h
    rw [← h]
    exact .inl (toolTables_plain.2 _ (mem_of_get (PlainObject.read_eq_own_iff.mp hread)))
  | inherited member =>
    rw [hread] at h
    cases h
  | undefined =>
    rw [hread] at h
    injection h with h
    exact .inr ⟨h.symm, h ▸ hread⟩

theorem normalizeToolName_idem {text : JsString} (h : normalizeToolName name = .text text) :
    normalizeToolName text = .text text := by
  rcases normalizeToolName_text h with ⟨hplain, -⟩ | ⟨hown, hundefined⟩
  · exact hplain.normalize
  · have hsame : normalizeLowercaseStringOrEmpty text = text := by
      rw [hown, normalizeLowercaseStringOrEmpty_idem]
    rw [normalizeToolName, hsame, hundefined]

theorem normalizeToolName_lower (name : JsString) :
    normalizeToolName (toLowerCase (trim name)) = normalizeToolName name := by
  have hsame : normalizeLowercaseStringOrEmpty (toLowerCase (trim name)) = normalizeLowercaseStringOrEmpty name := by
    rw [← normalizeLowercaseStringOrEmpty_idem name]
    by_cases hempty : trim name = []
    · have hnormal : normalizeLowercaseStringOrEmpty name = [] := if_pos hempty
      rw [hnormal, hempty, LowerCase.ascii [] (by simp)]
      rfl
    · have hnormal : normalizeLowercaseStringOrEmpty name = toLowerCase (trim name) := if_neg hempty
      rw [hnormal]
  simp only [normalizeToolName, hsame]

/-! ## Patterns -/

/-- A line terminator, which `.` does not match. -/
def isLineTerminator (u : UInt16) : Bool :=
  u = 0x000A || u = 0x000D || u = 0x2028 || u = 0x2029

inductive CompiledGlobPattern
  | all
  | exact (value : JsString)
  | regex (value : Glob UInt16)

def compileText (normalized : JsString) : Option CompiledGlobPattern :=
  if normalized = [] then none
  else if normalized = [STAR] then some .all
  else if STAR ∈ normalized then some (.regex (Glob.ofList STAR normalized))
  else some (.exact normalized)

/-- Compile one expanded entry, which is normalized once more; what is not a text normalizes to the empty one. -/
def compileGlobPattern (raw : NormalizedName) : Option CompiledGlobPattern :=
  match raw with
  | .text value =>
    match normalizeToolName value with
    | .text normalized => compileText normalized
    | .member _ => none
  | .member _ => none

def compileEntries (list : List JsString) : List CompiledGlobPattern :=
  (expandToolGroups list).filterMap compileGlobPattern

def CompiledGlobPattern.matches (name : NormalizedName) : CompiledGlobPattern → Bool
  | .all => true
  | .exact value => name = .text value
  | .regex value => value.test (!isLineTerminator ·) name.toText

def matchesAnyGlobPattern (name : NormalizedName) (patterns : List CompiledGlobPattern) : Bool :=
  patterns.any (·.matches name)

/-- The allow and deny lists of a policy. -/
structure SandboxToolPolicy where
  allow : List JsString := []
  deny : List JsString := []

def isToolAllowedByPolicyName (name : JsString) (policy : SandboxToolPolicy) : Bool :=
  let deny := compileEntries policy.deny
  let allow := compileEntries policy.allow
  let normalized := normalizeToolName name
  if matchesAnyGlobPattern normalized deny then false
  else if allow.isEmpty then true
  else if matchesAnyGlobPattern normalized allow then true
  -- `apply_patch` is the concrete write tool, so a broad write entry covers it
  else if normalized = .text (js "apply_patch") && matchesAnyGlobPattern (.text (js "write")) allow then true
  else false

/-! ## The matcher, entry by entry -/

variable {list : List JsString} {pattern : CompiledGlobPattern}

theorem mem_compileEntries : pattern ∈ compileEntries list ↔ ∃ entry ∈ list, pattern ∈ compileEntries [entry] := by
  simp only [compileEntries, expandToolGroups, mem_filterMap, mem_eraseDups, mem_flatMap,
    mem_filter, mem_map, mem_singleton]
  constructor
  · rintro ⟨value, ⟨normalized, ⟨⟨entry, hentry, rfl⟩, hne⟩, hvalue⟩, hpattern⟩
    exact ⟨entry, hentry, value, ⟨normalizeToolName entry, ⟨⟨entry, rfl, rfl⟩, hne⟩, hvalue⟩, hpattern⟩
  · rintro ⟨entry, hentry, value, ⟨normalized, ⟨⟨_, rfl, rfl⟩, hne⟩, hvalue⟩, hpattern⟩
    exact ⟨value, ⟨normalizeToolName _, ⟨⟨_, hentry, rfl⟩, hne⟩, hvalue⟩, hpattern⟩

theorem compileEntries_eq_nil_iff : compileEntries list = [] ↔ ∀ entry ∈ list, compileEntries [entry] = [] := by
  simp only [eq_nil_iff_forall_not_mem]
  constructor
  · exact fun h entry hentry pattern hpattern => h pattern (mem_compileEntries.mpr ⟨entry, hentry, hpattern⟩)
  · intro h pattern hpattern
    obtain ⟨entry, hentry, hpattern⟩ := mem_compileEntries.mp hpattern
    exact h entry hentry pattern hpattern

theorem matchesAny_compileEntries_iff {name : NormalizedName} : matchesAnyGlobPattern name (compileEntries list) ↔
      ∃ entry ∈ list, matchesAnyGlobPattern name (compileEntries [entry]) := by
  simp only [matchesAnyGlobPattern, any_eq_true]
  constructor
  · rintro ⟨pattern, hpattern, h⟩
    obtain ⟨entry, hentry, hpattern⟩ := mem_compileEntries.mp hpattern
    exact ⟨entry, hentry, pattern, hpattern, h⟩
  · rintro ⟨entry, hentry, pattern, hpattern, h⟩
    exact ⟨pattern, mem_compileEntries.mpr ⟨entry, hentry, hpattern⟩, h⟩

def deniedBy (list : List JsString) (name : JsString) : Bool :=
  !isToolAllowedByPolicyName name { deny := list }

def allowedBy (list : List JsString) (name : JsString) : Bool :=
  isToolAllowedByPolicyName name { allow := list }

theorem deniedBy_eq (list : List JsString) (name : JsString) :
    deniedBy list name = matchesAnyGlobPattern (normalizeToolName name) (compileEntries list) := by
  have hallow : compileEntries [] = [] := rfl
  simp only [deniedBy, isToolAllowedByPolicyName, hallow]
  split <;> simp_all

theorem deniedBy_iff : deniedBy list name ↔ ∃ entry ∈ list, deniedBy [entry] name := by
  simp only [deniedBy_eq]
  exact matchesAny_compileEntries_iff

theorem deniedBy_of_compileEntries_nil (h : compileEntries list = []) (name : JsString) :
    deniedBy list name = false := by
  rw [deniedBy_eq, h]
  rfl

theorem ne_nil_of_deniedBy {entry : JsString} (h : deniedBy [entry] name) : toLowerCase (trim entry) ≠ [] := by
  intro hempty
  have hnormal : normalizeToolName entry = .text [] := by
    rw [← normalizeToolName_lower, hempty]
    rfl
  have hnil : compileEntries [entry] = [] := by
    simp [compileEntries, expandToolGroups, hnormal]
  rw [deniedBy_of_compileEntries_nil hnil] at h
  cases h

theorem deniedBy_lower {entry text : JsString} (hname : normalizeToolName name = .text text) :
    deniedBy [toLowerCase (trim entry)] text = deniedBy [entry] name := by
  have hentries : compileEntries [toLowerCase (trim entry)] = compileEntries [entry] := by
    simp only [compileEntries, expandToolGroups, map_cons, map_nil, normalizeToolName_lower]
  rw [deniedBy_eq, deniedBy_eq, hentries, hname, normalizeToolName_idem hname]

variable {entry text : JsString}

theorem compileEntries_singleton (h : normalizeToolName entry = .text text) (hne : text ≠ [])
    (hgroup : get TOOL_GROUPS text = none) : compileEntries [entry] = (compileText text).toList := by
  have hexpand : expandToolGroups [entry] = [.text text] := by
    simp [expandToolGroups, h, hne, expandToolGroup, hgroup, eraseDups_cons]
  have hpattern : compileGlobPattern (.text text) = compileText text := by
    simp only [compileGlobPattern, normalizeToolName_idem h]
  rw [compileEntries, hexpand, filterMap_cons, filterMap_nil, hpattern]
  cases compileText text <;> rfl

omit [LowerCase] in
theorem compileText_cases {text : JsString} (h : compileText text = some pattern) :
    text = [STAR] ∧ pattern = .all ∨ STAR ∈ text ∧ pattern = .regex (Glob.ofList STAR text) ∨
      STAR ∉ text ∧ pattern = .exact text := by
  unfold compileText at h
  split at h
  · cases h
  split at h
  · exact .inl ⟨‹_›, (Option.some.inj h).symm⟩
  split at h
  · exact .inr (.inl ⟨‹_›, (Option.some.inj h).symm⟩)
  · exact .inr (.inr ⟨‹_›, (Option.some.inj h).symm⟩)

omit [LowerCase] in
theorem eq_of_matches {text : JsString} (h : compileText text = some pattern)
    (hstar : STAR ∉ text) (hmatches : pattern.matches (.text name)) : text = name := by
  rcases compileText_cases h with ⟨rfl, -⟩ | ⟨hmem, -⟩ | ⟨-, rfl⟩
  · exact absurd (mem_singleton_self _) hstar
  · exact absurd hmem hstar
  · rw [CompiledGlobPattern.matches, decide_eq_true_eq] at hmatches
    injection hmatches with heq
    exact heq.symm

omit [LowerCase] in
theorem ends_of_matches {text : JsString} (h : compileText text = some pattern)
    (hmatches : pattern.matches (.text name)) :
    text.takeWhile (· ≠ STAR) <+: name ∧ text.rtakeWhile (· ≠ STAR) <:+ name := by
  rcases compileText_cases h with ⟨rfl, -⟩ | ⟨-, rfl⟩ | ⟨hstar, -⟩
  · exact ⟨ nil_prefix, nil_suffix⟩
  · exact ⟨Glob.takeWhile_prefix_of_test hmatches, Glob.rtakeWhile_suffix_of_test hmatches⟩
  · rw [eq_of_matches h hstar hmatches]
    exact ⟨ takeWhile_prefix _, rtakeWhile_suffix _ _⟩

omit [LowerCase] in
theorem compileText_matches_self {text : JsString} (hne : text ≠ []) :
    ∃ pattern, compileText text = some pattern ∧ pattern.matches (.text text) := by
  unfold compileText
  rw [if_neg hne]
  by_cases hall : text = [STAR]
  · exact ⟨.all, if_pos hall, rfl⟩
  rw [if_neg hall]
  by_cases hstar : STAR ∈ text
  · exact ⟨.regex (Glob.ofList STAR text), if_pos hstar, Glob.test_ofList_self (by decide) text⟩
  · exact ⟨.exact text, if_neg hstar, decide_eq_true rfl⟩

theorem deniedBy_self (h : normalizeToolName entry = .text text) (hne : text ≠ [])
    (hgroup : get TOOL_GROUPS text = none) : deniedBy [entry] entry := by
  obtain ⟨pattern, hpattern, hmatches⟩ := compileText_matches_self hne
  rw [deniedBy_eq, compileEntries_singleton h hne hgroup, hpattern, h]
  simp [matchesAnyGlobPattern, hmatches]

theorem compileEntries_group {group : List JsString}
    (h : normalizeToolName entry = .text text) (hne : text ≠ []) (hgroup : get TOOL_GROUPS text = some group) :
    compileEntries [entry] ≠ [] := by
  obtain ⟨-, -, hmembers, hplain⟩ := toolTables_plain.1 _ (mem_of_get hgroup)
  obtain ⟨id, hid⟩ := exists_mem_of_ne_nil group hmembers
  have hexpand : .text id ∈ expandToolGroups [entry] := by
    simp [expandToolGroups, h, hne, expandToolGroup, hgroup, hid]
  obtain ⟨pattern, hpattern, -⟩ := compileText_matches_self (hplain id hid).ne_nil
  have hmem : pattern ∈ compileEntries [entry] := by
    refine mem_filterMap.mpr ⟨.text id, hexpand, ?_⟩
    simp only [compileGlobPattern, (hplain id hid).normalize, hpattern]
  exact ne_nil_of_mem hmem

theorem compileEntries_of_not_text {entry : JsString} (h : ∀ text ≠ [], normalizeToolName entry ≠ .text text) :
    compileEntries [entry] = [] := by
  cases hname : normalizeToolName entry with
  | text text =>
    by_cases hne : text = []
    · simp [compileEntries, expandToolGroups, hname, hne]
    · exact absurd hname (h text hne)
  | member member => simp [compileEntries, expandToolGroups, hname, expandToolGroup, eraseDups_cons,
      compileGlobPattern]

theorem normalizeToolName_of_compileEntries_nil (h : compileEntries [entry] = [])
    (htext : normalizeToolName entry = .text text) : text = [] := by
  by_contra hne
  cases hgroup : get TOOL_GROUPS text with
  | some group => exact compileEntries_group htext hne hgroup h
  | none =>
    have hself := deniedBy_self htext hne hgroup
    rw [deniedBy_of_compileEntries_nil h] at hself
    cases hself

theorem pattern_of_deniedBy {entry text : JsString} (hname : normalizeToolName name = .text text)
    (hdelimiter : js "__" <:+: text) (h : deniedBy [entry] name) :
    ∃ pattern, compileText (toLowerCase (trim entry)) = some pattern ∧ pattern.matches (.text text) := by
  rw [deniedBy_eq, hname, matchesAnyGlobPattern, any_eq_true] at h
  obtain ⟨pattern, hpattern, hmatches⟩ := h
  have hforeign : ∀ id : JsString, PlainToolId id → compileText id ≠ some pattern := by
    intro id hplain hcompiled
    have hnone := hplain.no_delimiter
    rw [eq_of_matches hcompiled hplain.no_star hmatches] at hnone
    exact hnone hdelimiter
  cases hentry : normalizeToolName entry with
  | member member =>
    rw [compileEntries_of_not_text fun text _ htext => by cases hentry.symm.trans htext] at hpattern
    cases hpattern
  | text known =>
    by_cases hne : known = []
    · rw [compileEntries_of_not_text fun text hne' htext => hne' (by cases hentry.symm.trans htext; exact hne)]
        at hpattern
      cases hpattern
    cases hgroup : get TOOL_GROUPS known with
    | some group =>
      simp only [compileEntries, expandToolGroups, map_cons, map_nil, hentry, ne_eq,
        NormalizedName.text.injEq, hne, not_false_eq_true, decide_true, filter_cons_of_pos, filter_nil,
        flatMap_cons, flatMap_nil, append_nil, expandToolGroup, hgroup, mem_filterMap,
        mem_eraseDups, mem_map] at hpattern
      obtain ⟨_, ⟨id, hid, rfl⟩, hcompiled⟩ := hpattern
      have hplain := (toolTables_plain.1 _ (mem_of_get hgroup)).2.2.2 id hid
      simp only [compileGlobPattern, hplain.normalize] at hcompiled
      exact absurd hcompiled (hforeign id hplain)
    | none =>
      rw [compileEntries_singleton hentry hne hgroup, Option.mem_toList] at hpattern
      rcases normalizeToolName_text hentry with ⟨hplain, -⟩ | ⟨hown, -⟩
      · exact absurd hpattern (hforeign known hplain)
      · rw [hown, normalizeLowercase_of_ne_nil (hown ▸ hne)] at hpattern
        exact ⟨pattern, hpattern, hmatches⟩

theorem compileEntries_star : compileEntries [[STAR]] = [.all] := by
  have hnormal : normalizeToolName [STAR] = .text [STAR] := by
    rw [normalizeToolName, normalizeLowercase_of_lower (by decide) (by decide)]
    rfl
  rw [compileEntries_singleton hnormal (by decide) (by rfl)]
  rfl

theorem allowedBy_iff : allowedBy list name ↔ compileEntries list = [] ∨
      matchesAnyGlobPattern (normalizeToolName name) (compileEntries list) ∨
        normalizeToolName name = .text (js "apply_patch") ∧
          matchesAnyGlobPattern (.text (js "write")) (compileEntries list) := by
  have hempty : matchesAnyGlobPattern (normalizeToolName name) (compileEntries []) = false := rfl
  unfold allowedBy isToolAllowedByPolicyName
  simp only [hempty, Bool.false_eq_true, if_false, List.isEmpty_iff, Bool.and_eq_true, decide_eq_true_eq]
  by_cases hnil : compileEntries list = []
  · simp [hnil]
  by_cases hmatch : matchesAnyGlobPattern (normalizeToolName name) (compileEntries list)
  · simp [hmatch]
  · simp [hnil, hmatch]

theorem allowedBy_entry (hlist : list ≠ []) (h : allowedBy list name) : ∃ entry ∈ list, allowedBy [entry] name := by
  rcases allowedBy_iff.mp h with hnil | hmatch | ⟨hpatch, hwrite⟩
  · obtain ⟨entry, hentry⟩ := exists_mem_of_ne_nil list hlist
    exact ⟨entry, hentry, allowedBy_iff.mpr (.inl (compileEntries_eq_nil_iff.mp hnil entry hentry))⟩
  · obtain ⟨entry, hentry, hmatches⟩ := matchesAny_compileEntries_iff.mp hmatch
    exact ⟨entry, hentry, allowedBy_iff.mpr (.inr (.inl hmatches))⟩
  · obtain ⟨entry, hentry, hmatches⟩ := matchesAny_compileEntries_iff.mp hwrite
    exact ⟨entry, hentry, allowedBy_iff.mpr (.inr (.inr ⟨hpatch, hmatches⟩))⟩

end ClawWorks
