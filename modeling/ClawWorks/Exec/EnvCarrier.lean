import ClawWorks.Exec.Tokens

/-!
# The command behind `env`

`env` takes options and assignments before the command it runs, and `env -S` takes the command itself as one text.
-/

namespace ClawWorks.Exec

def MAX_ENV_SPLIT_PAYLOAD_DEPTH : Nat := 32

def ENV_OPTIONS_WITH_VALUE : List JsString :=
  [js "-C", js "-P", js "-S", js "-s", js "-u", js "--argv0", js "--block-signal", js "--chdir", js "--default-signal",
    js "--ignore-signal", js "--split-string", js "--unset"]

def ENV_SPLIT_STRING_OPTIONS : List JsString :=
  [js "-S", js "-s", js "--split-string"]

def ENV_STANDALONE_OPTIONS : List JsString :=
  [js "-0", js "-i", js "--ignore-environment", js "--null"]

/-- What `.` of a regular expression does not match. -/
def isLineTerminator (u : UInt16) : Bool :=
  u == 10 || u == 13 || u == 0x2028 || u == 0x2029

/-- `/^[A-Za-z_][A-Za-z0-9_]*=.*$/`. -/
def isEnvAssignmentToken (token : JsString) : Bool :=
  match token.dropWhile isWordUnit with
  | delimiter :: value =>
    delimiter == EQUALS && token.head?.any (fun u => isLetter u || u == 95) && !value.any isLineTerminator
  | [] => false

structure ParsedCarrierOption where
  name : JsString
  inlineValue : Option JsString

def parseShortCluster (standaloneOptions optionsWithValue : List JsString) :
    JsString → Option (List ParsedCarrierOption)
  | [] => some []
  | u :: cluster =>
    if optionsWithValue.contains [DASH, u] then
      some [⟨[DASH, u], if cluster.isEmpty then none else some cluster⟩]
    else if standaloneOptions.contains [DASH, u] then
      (parseShortCluster standaloneOptions optionsWithValue cluster).map (⟨[DASH, u], none⟩ :: ·)
    else none

def parseCarrierOptionToken (token : JsString) (standaloneOptions optionsWithValue : List JsString) :
    Option (List ParsedCarrierOption) :=
  if (js "--").isPrefixOf token then
    let option := parseInlineOptionToken token
    if standaloneOptions.contains option.name || optionsWithValue.contains option.name then
      some [⟨option.name, option.inlineValue⟩]
    else none
  else
    match token with
    | _ :: u :: cluster =>
      -- `/^-[A-Za-z0-9]/`, in the one place where the first unit is known to be a dash.
      if startsWithDash token && (isLetter u || isDigit u) then
        parseShortCluster standaloneOptions optionsWithValue (u :: cluster)
      else none
    | _ => none

def knownCarrierOptionConsumesNextValue (options : List ParsedCarrierOption) (optionsWithValue : List JsString) :
    Bool :=
  options.foldl
    (fun consumes option => if optionsWithValue.contains option.name then option.inlineValue.isNone else consumes) false

/-! ## The prelude -/

structure ParsedEnvInvocationPrelude where
  assignmentKeys : List JsString
  commandIndex : Nat
  splitArgv : Option Argv
  usesModifiers : Bool

/-- The tokens from `index` on. A split text is handed to `split` with what follows it. -/
def scanEnvPrelude (split : JsString → Argv → Option Argv) :
    Argv → Nat → List JsString → Bool → Option ParsedEnvInvocationPrelude
  | [], _, _, _ => none
  | token :: rest, index, assignmentKeys, usesModifiers =>
    if token.isEmpty then none
    else if isEnvAssignmentToken token then
      scanEnvPrelude split rest (index + 1) (assignmentKeys ++ [token.takeWhile (· != EQUALS)]) true
    else if token == js "--" || token == [DASH] then
      if rest.isEmpty then none else some ⟨assignmentKeys, index + 1, none, usesModifiers⟩
    else if startsWithDash token then
      match parseCarrierOptionToken token ENV_STANDALONE_OPTIONS ENV_OPTIONS_WITH_VALUE with
      | none => none
      | some option =>
        match option.find? fun o => ENV_SPLIT_STRING_OPTIONS.contains o.name with
        | some splitStringOption =>
          match splitStringOption.inlineValue, rest with
          | some payload, trailing =>
            (split payload trailing).map fun splitArgv => ⟨assignmentKeys, index + 1, some splitArgv, true⟩
          | none, payload :: trailing =>
            (split payload trailing).map fun splitArgv => ⟨assignmentKeys, index + 2, some splitArgv, true⟩
          | none, [] => none
        | none =>
          match knownCarrierOptionConsumesNextValue option ENV_OPTIONS_WITH_VALUE, rest with
          | true, _ :: rest => scanEnvPrelude split rest (index + 2) assignmentKeys true
          | true, [] => none
          | false, rest => scanEnvPrelude split rest (index + 1) assignmentKeys true
    else some ⟨assignmentKeys, index, none, usesModifiers⟩

theorem scanEnvPrelude_cases {split : JsString → Argv → Option Argv} {argv : Argv} {index : Nat}
    {keys : List JsString} {modified : Bool} {parsed : ParsedEnvInvocationPrelude}
    (h : scanEnvPrelude split argv index keys modified = some parsed) :
    (parsed.splitArgv = none ∧ index ≤ parsed.commandIndex ∧ parsed.commandIndex < index + argv.length) ∨
      parsed.usesModifiers ∧ ∃ payload trailing inner,
        parsed.splitArgv = some inner ∧ split payload trailing = some inner := by
  have hafter : ∀ {n m k l : Nat}, n + k ≤ m ∧ m < n + k + l → n ≤ m ∧ m < n + (l + k) := by
    intro n m k l h
    omega
  fun_induction scanEnvPrelude split argv index keys modified with
  | case1 => cases h
  | case2 => cases h
  | case3 _ _ _ _ _ _ _ ih => exact (ih h).imp_left fun hplace => ⟨hplace.1, hafter hplace.2⟩
  | case4 => cases h
  | case5 _ rest index =>
    cases h
    rename_i hrest
    refine .inl ⟨rfl, Nat.le_succ index, ?_⟩
    have hlength : 0 < rest.length := List.length_pos_iff.mpr (by simpa using hrest)
    simp only [List.length_cons]
    omega
  | case6 => cases h
  | case7 | case8 =>
    obtain ⟨inner, hinner, rfl⟩ := Option.map_eq_some_iff.mp h
    exact .inr ⟨rfl, _, _, inner, rfl, hinner⟩
  | case9 => cases h
  | case10 _ _ _ _ _ _ _ _ _ _ _ _ _ _ ih => exact (ih h).imp_left fun hplace => ⟨hplace.1, hafter (hafter hplace.2)⟩
  | case11 => cases h
  | case12 _ _ _ _ _ _ _ _ _ _ _ _ _ ih => exact (ih h).imp_left fun hplace => ⟨hplace.1, hafter hplace.2⟩
  | case13 =>
    cases h
    refine .inl ⟨rfl, Nat.le_refl _, ?_⟩
    simp only [List.length_cons]
    omega

section

variable [LowerCase]

/-- `env`. -/
def ENV : JsString := js "env"

/-- The prelude of an `env` invocation with so many levels of split texts left. -/
def parseEnvInvocationPreludeWithin : Nat → Argv → Option ParsedEnvInvocationPrelude
  | 0, _ => none
  | levels + 1, argv =>
    if normalizeExecutableToken (argvAt argv 0) = ENV then
      scanEnvPrelude (fun payload trailingArgv =>
          match splitShellArgs payload with
          | none => none
          | some innerArgv =>
            if innerArgv.isEmpty then none
            else
              let carriedArgv := innerArgv ++ trailingArgv
              -- The split text may start another `env`; when that cannot be read, its words are the command.
              match parseEnvInvocationPreludeWithin levels (ENV :: carriedArgv) with
              | none => some carriedArgv
              | some parsed => some (parsed.splitArgv.getD ((ENV :: carriedArgv).drop parsed.commandIndex)))
        argv.tail 1 [] false
    else none

def parseEnvInvocationPrelude (argv : Argv) : Option ParsedEnvInvocationPrelude :=
  parseEnvInvocationPreludeWithin (MAX_ENV_SPLIT_PAYLOAD_DEPTH + 1) argv

def envInvocationUsesModifiers (argv : Argv) : Bool :=
  match parseEnvInvocationPrelude argv with
  | some parsed => parsed.usesModifiers
  | none => normalizeExecutableToken (argvAt argv 0) = ENV

/-- The vector behind `env`, made of the split text when there is one. -/
def unwrapEnvInvocation (argv : Argv) : Option Argv :=
  (parseEnvInvocationPrelude argv).map fun parsed => parsed.splitArgv.getD (argv.drop parsed.commandIndex)

/-- `env -S`. -/
def envSplitsString (argv : Argv) : Bool :=
  (parseEnvInvocationPrelude argv).any (·.splitArgv.isSome)

theorem carriedArgv_ne_nil {levels : Nat} {argv : Argv} {parsed : ParsedEnvInvocationPrelude}
    (h : parseEnvInvocationPreludeWithin levels argv = some parsed) :
    parsed.splitArgv.getD (argv.drop parsed.commandIndex) ≠ [] := by
  induction levels generalizing argv parsed with
  | zero => cases h
  | succ levels ih =>
    unfold parseEnvInvocationPreludeWithin at h
    split at h
    · rcases scanEnvPrelude_cases h with ⟨hsplit, hlow, hhigh⟩ | ⟨-, payload, trailing, inner, hsplit, hinner⟩
      · rw [hsplit, Option.getD_none]
        intro hnil
        have hlength := List.drop_eq_nil_iff.mp hnil
        rw [List.length_tail] at hhigh
        omega
      · rw [hsplit, Option.getD_some]
        dsimp only at hinner
        split at hinner
        · cases hinner
        rename_i innerArgv _
        split at hinner
        · cases hinner
        rename_i hwords
        split at hinner
        · cases hinner
          intro hnil
          rw [(List.append_eq_nil_iff.mp hnil).1] at hwords
          exact hwords rfl
        · rename_i nested hnested
          cases hinner
          exact ih hnested
    · cases h

/-- **What `env` carries is a part of its vector, or is made of a split text, which counts as a modifier.** -/
theorem unwrapEnvInvocation_cases {argv inner : Argv} (h : unwrapEnvInvocation argv = some inner) :
    inner ≠ [] ∧ (inner <:+ argv ∨ envSplitsString argv ∧ envInvocationUsesModifiers argv) := by
  obtain ⟨parsed, hparsed, rfl⟩ := Option.map_eq_some_iff.mp h
  refine ⟨carriedArgv_ne_nil hparsed, ?_⟩
  have hscan := hparsed
  unfold parseEnvInvocationPrelude parseEnvInvocationPreludeWithin at hscan
  split at hscan
  · rcases scanEnvPrelude_cases hscan with ⟨hsplit, -⟩ | ⟨hmodifiers, -, -, inner, hsplit, -⟩
    · rw [hsplit, Option.getD_none]
      exact .inl (List.drop_suffix _ _)
    · refine .inr ⟨?_, ?_⟩
      · rw [envSplitsString, hparsed, Option.any_some, hsplit, Option.isSome_some]
      · simp only [envInvocationUsesModifiers, hparsed, hmodifiers]
  · cases hscan

end

end ClawWorks.Exec
