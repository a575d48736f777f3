import ClawWorks.Config.ConfigValue

/-!
# Environment variables in config values

`resolveConfigEnvVars` puts the values of `${VAR}` references into the strings of a config; `$${VAR}` is the literal
`${VAR}`. It is called with `onMissing`, so that a missing or empty variable keeps its placeholder.
-/

namespace ClawWorks

open List
namespace Config

def DOLLAR : UInt16 := 36
def LBRACE : UInt16 := 123
def RBRACE : UInt16 := 125

/-- `[A-Z_]`. -/
def isEnvNameStart (u : UInt16) : Bool :=
  (65 ≤ u && u ≤ 90) || u == 95

/-- `/^[A-Z_][A-Z0-9_]*$/`. -/
def isEnvVarName : JsString → Bool
  | [] => false
  | u :: s => isEnvNameStart u && s.all fun v => isEnvNameStart v || isDigit v

/-- The environment. -/
abbrev Env := JsString → Option JsString

/-! ## Tokens -/

def closingBrace : JsString → Option (JsString × JsString)
  | [] => none
  | u :: s => if u = RBRACE then some ([], s) else (closingBrace s).map fun found => (u :: found.1, found.2)

/-- The name that ends at the next closing brace, if it is one of a variable, and what follows. -/
def envName? (s : JsString) : Option (JsString × JsString) :=
  (closingBrace s).filter fun found => isEnvVarName found.1

variable {s name rest : JsString}

theorem length_of_closingBrace (h : closingBrace s = some (name, rest)) : rest.length < s.length := by
  induction s generalizing name with
  | nil => cases h
  | cons u s ih =>
    rw [closingBrace] at h
    split at h
    · cases h
      exact Nat.lt_succ_self _
    · obtain ⟨⟨name', rest'⟩, hfound, heq⟩ := Option.map_eq_some_iff.mp h
      cases heq
      exact (ih hfound).trans (Nat.lt_succ_self _)

theorem length_of_envName? (h : envName? s = some (name, rest)) : rest.length < s.length :=
  length_of_closingBrace (Option.filter_eq_some_iff.mp h).1

/-- `${name}`. -/
def placeholder (name : JsString) : JsString :=
  [DOLLAR, LBRACE] ++ name ++ [RBRACE]

inductive EnvTokenKind
  | escaped
  | substitution
deriving DecidableEq

structure EnvToken where
  kind : EnvTokenKind
  name : JsString
  rest : JsString

def parseEnvTokenAt : JsString → Option EnvToken
  | [] => none
  | u :: s =>
    if u ≠ DOLLAR then none
    else if s.take 2 = [DOLLAR, LBRACE] then
      (envName? (s.drop 2)).map fun found => ⟨.escaped, found.1, found.2⟩
    else if s.take 1 = [LBRACE] then
      (envName? (s.drop 1)).map fun found => ⟨.substitution, found.1, found.2⟩
    else none

variable {s : JsString} {token : EnvToken}

theorem length_of_parseEnvTokenAt (h : parseEnvTokenAt s = some token) : token.rest.length < s.length := by
  cases s with
  | nil => cases h
  | cons u s =>
    have hrest : ∀ n : Nat, ∀ kind : EnvTokenKind,
        ((envName? (s.drop n)).map fun found => (⟨kind, found.1, found.2⟩ : EnvToken)) = some token →
          token.rest.length < (u :: s).length := by
      intro n kind hn
      obtain ⟨⟨name, rest⟩, hfound, rfl⟩ := Option.map_eq_some_iff.mp hn
      have hlength := length_of_envName? hfound
      rw [length_drop] at hlength
      rw [length_cons]
      dsimp only
      omega
    rw [parseEnvTokenAt] at h
    split at h
    · cases h
    · split at h
      · exact hrest 2 _ h
      · split at h
        · exact hrest 1 _ h
        · cases h

/-! ## Strings -/

/-- `env[name]`, where a missing or empty variable keeps its placeholder. -/
def envText (env : Env) (name : JsString) : JsString :=
  match env name with
  | some text => if text = [] then placeholder name else text
  | none => placeholder name

def tokenText (env : Env) (token : EnvToken) : JsString :=
  match token.kind with
  | .escaped => placeholder token.name
  | .substitution => envText env token.name

/-- The chunks of `substituteString`. -/
def substituteChunks (env : Env) (value : JsString) : JsString :=
  match value with
  | [] => []
  | u :: s =>
    match _h : parseEnvTokenAt (u :: s) with
    | some token => tokenText env token ++ substituteChunks env token.rest
    | none => u :: substituteChunks env s
termination_by value.length
decreasing_by
  · exact length_of_parseEnvTokenAt _h
  · exact Nat.lt_succ_self s.length

def substituteString (env : Env) (value : JsString) : JsString :=
  if DOLLAR ∉ value then value else substituteChunks env value

variable {env : Env}

theorem substituteChunks_of_token (h : parseEnvTokenAt s = some token) :
    substituteChunks env s = tokenText env token ++ substituteChunks env token.rest := by
  cases s with
  | nil => cases h
  | cons u s =>
    rw [substituteChunks]
    split
    · rename_i token' htoken
      obtain rfl := Option.mem_unique h htoken
      rfl
    · rename_i hnone
      cases h.symm.trans hnone

theorem substituteChunks_of_none {u : UInt16} (h : parseEnvTokenAt (u :: s) = none) :
    substituteChunks env (u :: s) = u :: substituteChunks env s := by
  rw [substituteChunks]
  split
  · rename_i token htoken
    cases h.symm.trans htoken
  · rfl

theorem substituteChunks_of_not_mem (h : DOLLAR ∉ s) : substituteChunks env s = s := by
  induction s with
  | nil => rw [substituteChunks]
  | cons u s ih =>
    obtain ⟨hu, hs⟩ := not_or.mp (mt mem_cons.mpr h)
    have hnone : parseEnvTokenAt (u :: s) = none := by rw [parseEnvTokenAt, if_pos (Ne.symm hu)]
    rw [substituteChunks_of_none hnone, ih hs]

theorem substituteString_eq (env : Env) (s : JsString) : substituteString env s = substituteChunks env s := by
  rw [substituteString]
  split
  · rw [substituteChunks_of_not_mem ‹_›]
  · rfl

/-- `substituteAny`: the copy of an object is made by assignments. -/
def substituteAny (env : Env) : ConfigValue → ConfigValue
  | .string text => .string (substituteString env text)
  | .array items => .array (items.map fun item => substituteAny env item)
  | .object members => .object (assignAll (members.map fun member => (member.1, substituteAny env member.2)))
  | .number text => .number text
  | .boolean value => .boolean value
  | .null => .null
termination_by value => sizeOf value
decreasing_by
  · exact ConfigValue.sizeOf_item_lt ‹_›
  · exact ConfigValue.sizeOf_member_lt ‹_›

def resolveConfigEnvVars (env : Env) (value : ConfigValue) : ConfigValue :=
  substituteAny env value

theorem assignAll_map {members : List (JsString × ConfigValue)} (h : (members.map (·.1)).Nodup)
    (f : ConfigValue → ConfigValue) :
    assignAll (members.map fun member => (member.1, f member.2)) =
      (members.filter fun member => member.1 ≠ PROTO).map fun member => (member.1, f member.2) := by
  rw [assignAll_of_nodup (by rwa [map_map]), filter_map]
  rfl

theorem uniqueKeys_resolveConfigEnvVars (env : Env) {value : ConfigValue} (h : value.UniqueKeys) :
    (resolveConfigEnvVars env value).UniqueKeys := by
  rw [resolveConfigEnvVars]
  induction value with
  | object members ih =>
    obtain ⟨hnodup, hmembers⟩ := ConfigValue.uniqueKeys_object.mp h
    rw [substituteAny, assignAll_map hnodup, ConfigValue.uniqueKeys_object, map_map]
    refine ⟨hnodup.sublist (filter_sublist.map _), fun member hmember => ?_⟩
    obtain ⟨authored, hauthored, rfl⟩ := mem_map.mp hmember
    have hauthored := mem_of_mem_filter hauthored
    exact ih authored hauthored (hmembers authored hauthored)
  | array items ih =>
    rw [substituteAny, ConfigValue.uniqueKeys_array, forall_mem_map]
    exact fun item hitem => ih item hitem (ConfigValue.uniqueKeys_array.mp h item hitem)
  | string | number | boolean | null => rw [substituteAny]; rintro members (_ | _ | _)

/-- **A resolved config has no member `__proto__`.** -/
theorem not_hasKey_resolveConfigEnvVars (env : Env) {value : ConfigValue} (h : value.UniqueKeys) :
    ¬(resolveConfigEnvVars env value).HasKey PROTO := by
  rw [resolveConfigEnvVars]
  induction value with
  | object members ih =>
    obtain ⟨hnodup, hmembers⟩ := ConfigValue.uniqueKeys_object.mp h
    rw [substituteAny, assignAll_map hnodup, ConfigValue.hasKey_object, map_map]
    rintro (hkey | ⟨member, hmember, hbelow⟩)
    · obtain ⟨authored, hauthored, hname⟩ := mem_map.mp hkey
      have hne : authored.1 ≠ PROTO := by simpa using of_mem_filter hauthored
      exact hne hname
    · obtain ⟨authored, hauthored, rfl⟩ := mem_map.mp hmember
      have hauthored := mem_of_mem_filter hauthored
      exact ih authored hauthored (hmembers authored hauthored) hbelow
  | array items ih =>
    rw [substituteAny, ConfigValue.hasKey_array]
    rintro ⟨item, hitem, hbelow⟩
    obtain ⟨authored, hauthored, rfl⟩ := mem_map.mp hitem
    exact ih authored hauthored (ConfigValue.uniqueKeys_array.mp h authored hauthored) hbelow
  | string | number | boolean | null =>
    rw [substituteAny]
    rintro ⟨members, _ | _ | _, -⟩

end Config
end ClawWorks
