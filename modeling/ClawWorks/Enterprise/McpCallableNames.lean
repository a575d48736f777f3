import ClawWorks.Agents.ToolPolicy

/-!
# Callable names of MCP tools

The names a runtime can put in front of the model, and in front of its hooks, for an MCP tool, and the rewrites it
applies to make them unique and short enough. Codex sanitizes, truncates, and separates collisions with a hash of
twelve hexadecimal digits that only its shape identifies.
-/

namespace ClawWorks

open List

/-! ## Sanitizing and trimming -/

/-- `_`. -/
def UNDERSCORE : UInt16 := 95

/-- `[A-Za-z0-9_]`. -/
def isWordCharacter (u : UInt16) : Bool :=
  (65 ≤ u && u ≤ 90) || (97 ≤ u && u ≤ 122) || (48 ≤ u && u ≤ 57) || u = UNDERSCORE

/-- `[0-9a-f]`. -/
def isHexDigit (u : UInt16) : Bool :=
  (48 ≤ u && u ≤ 57) || (97 ≤ u && u ≤ 102)

/-- Replace every character that does not pass by `_`. -/
def underscored (passes : UInt16 → Bool) (s : JsString) : JsString :=
  (codePoints s).flatMap fun character => if character.all passes then character else [UNDERSCORE]

theorem underscored_cons_cons (passes : UInt16 → Bool) (u v : UInt16) (s : JsString) :
    (underscored passes (u :: v :: s) = [u, v] ++ underscored passes s ∧ passes u ∧ passes v) ∨
      underscored passes (u :: v :: s) = UNDERSCORE :: underscored passes s ∨
      (underscored passes (u :: v :: s) = u :: underscored passes (v :: s) ∧ passes u) ∨
      underscored passes (u :: v :: s) = UNDERSCORE :: underscored passes (v :: s) := by
  simp only [underscored]
  rw [codePoints]
  split
  · rw [flatMap_cons]
    cases hpass : [u, v].all passes with
    | true => exact .inl ⟨by rw [if_pos rfl], by simpa using hpass⟩
    | false => exact .inr (.inl (by rw [if_neg Bool.false_ne_true, singleton_append]))
  · rw [flatMap_cons]
    by_cases hpass : passes u
    · exact .inr (.inr (.inl ⟨by simp [hpass], hpass⟩))
    · exact .inr (.inr (.inr (by simp [hpass])))

theorem underscored_singleton (passes : UInt16 → Bool) (u : UInt16) :
    underscored passes [u] = if passes u then [u] else [UNDERSCORE] := by
  simp [underscored, codePoints]

theorem passes_of_mem_underscored (passes : UInt16 → Bool) (hunderscore : passes UNDERSCORE) {s : JsString}
    {u : UInt16} (h : u ∈ underscored passes s) : passes u := by
  obtain ⟨character, -, hu⟩ := mem_flatMap.mp h
  split at hu
  · rename_i hall
    exact all_eq_true.mp hall u hu
  · rw [mem_singleton.mp hu]
    exact hunderscore

theorem prefix_of_underscored (passes : UInt16 → Bool) : ∀ (s run : JsString), UNDERSCORE ∉ run →
    run <+: underscored passes s → run <+: s
  | [], _, _, h => h
  | [u], run, hrun, h => by
    rw [underscored_singleton] at h
    split at h
    · exact h
    · rcases prefix_cons_iff.mp h with rfl | ⟨rest, rfl, -⟩
      · exact nil_prefix
      · exact absurd mem_cons_self hrun
  | u :: v :: s, run, hrun, h => by
    rcases run with _ | ⟨a, rest⟩
    · exact nil_prefix
    have hrest : UNDERSCORE ∉ rest := fun hmem => hrun (mem_cons_of_mem a hmem)
    have hhead : UNDERSCORE ≠ a := fun heq => hrun (heq ▸ mem_cons_self)
    rcases underscored_cons_cons passes u v s with ⟨hpair, -, -⟩ | hpair | ⟨hpair, -⟩ | hpair <;> rw [hpair] at h
    · rw [cons_append, cons_prefix_cons] at h
      obtain ⟨rfl, h⟩ := h
      rw [cons_append, nil_append] at h
      rcases prefix_cons_iff.mp h with rfl | ⟨rest', rfl, h'⟩
      · exact ⟨v :: s, rfl⟩
      · have hrest' : UNDERSCORE ∉ rest' := fun hmem => hrest (mem_cons_of_mem v hmem)
        rw [cons_prefix_cons, cons_prefix_cons]
        exact ⟨rfl, rfl, prefix_of_underscored passes s rest' hrest' h'⟩
    · exact absurd (cons_prefix_cons.mp h).1.symm hhead
    · obtain ⟨rfl, htail⟩ := cons_prefix_cons.mp h
      exact cons_prefix_cons.mpr ⟨rfl, prefix_of_underscored passes (v :: s) rest hrest htail⟩
    · exact absurd (cons_prefix_cons.mp h).1.symm hhead

theorem infix_of_underscored (passes : UInt16 → Bool) : ∀ (s : JsString) {run : JsString}, UNDERSCORE ∉ run →
    run <:+: underscored passes s → run <:+: s
  | [], _, _, h => h
  | [u], run, hrun, h => by
    have hwhole := prefix_of_underscored passes [u] run hrun
    rw [underscored_singleton, ← apply_ite (fun a : UInt16 => [a])] at h hwhole
    rcases infix_cons_iff.mp h with hprefix | hnil
    · exact (hwhole hprefix).isInfix
    · rw [infix_nil.mp hnil]
      exact nil_infix
  | u :: v :: s, run, hrun, h => by
    have hwhole := prefix_of_underscored passes (u :: v :: s) run hrun
    rcases underscored_cons_cons passes u v s with ⟨hpair, -, -⟩ | hpair | ⟨hpair, -⟩ | hpair <;>
      rw [hpair] at h hwhole
    · rw [cons_append, infix_cons_iff] at h
      rcases h with hprefix | h
      · exact (hwhole hprefix).isInfix
      rw [cons_append, nil_append, infix_cons_iff] at h
      rcases h with hprefix | h
      · rcases prefix_cons_iff.mp hprefix with rfl | ⟨rest, rfl, hrest⟩
        · exact nil_infix
        · have hclean : UNDERSCORE ∉ rest := fun hmem => hrun (mem_cons_of_mem v hmem)
          have hin := prefix_of_underscored passes s rest hclean hrest
          exact (cons_prefix_cons.mpr ⟨rfl, hin⟩).isInfix.trans (suffix_cons u (v :: s)).isInfix
      · exact (infix_of_underscored passes s hrun h).trans (suffix_append [u, v] s).isInfix
    · rcases infix_cons_iff.mp h with hprefix | h
      · exact (hwhole hprefix).isInfix
      · exact (infix_of_underscored passes s hrun h).trans (suffix_append [u, v] s).isInfix
    · rcases infix_cons_iff.mp h with hprefix | h
      · exact (hwhole hprefix).isInfix
      · exact (infix_of_underscored passes (v :: s) hrun h).trans (suffix_cons u (v :: s)).isInfix
    · rcases infix_cons_iff.mp h with hprefix | h
      · exact (hwhole hprefix).isInfix
      · exact (infix_of_underscored passes (v :: s) hrun h).trans (suffix_cons u (v :: s)).isInfix

theorem underscored_eq_self (passes : UInt16 → Bool) : ∀ s : JsString, UNDERSCORE ∉ underscored passes s →
    underscored passes s = s
  | [], _ => rfl
  | [u], h => by
    rw [underscored_singleton] at h ⊢
    split at h
    · rename_i hu
      rw [if_pos hu]
    · exact absurd (mem_singleton_self _) h
  | u :: v :: s, h => by
    rcases underscored_cons_cons passes u v s with ⟨hpair, -, -⟩ | hpair | ⟨hpair, -⟩ | hpair <;> rw [hpair] at h ⊢
    · rw [underscored_eq_self passes s fun hmem => h (mem_append_right _ hmem)]
      rfl
    · exact absurd mem_cons_self h
    · rw [underscored_eq_self passes (v :: s) fun hmem => h (mem_cons_of_mem u hmem)]
    · exact absurd mem_cons_self h

def codexNamespace (server : JsString) : JsString :=
  let sanitized := underscored isWordCharacter server
  if sanitized = [] then [UNDERSCORE] else sanitized

/-- Hexadecimal digits of Codex's disambiguator. -/
def COLLISION_HASH_LENGTH : Nat := 12

/-- The length Codex truncates a namespace to when even a hash-only tool part will not fit. -/
def CODEX_NAMESPACE_TRUNCATION_LIMIT : Nat := 49

def LEGACY_PREFIX : JsString :=
  js "mcp__"

def trimCodexNamespace (callableNamespace : JsString) : JsString :=
  callableNamespace.rdropWhile (· = UNDERSCORE)

/-- It drops leading underscores of the tool. -/
def trimCodexToolName (tool : JsString) : JsString :=
  tool.dropWhile (· = UNDERSCORE)

def withLegacyPrefix (callableNamespace : JsString) : JsString :=
  if LEGACY_PREFIX.isPrefixOf callableNamespace then callableNamespace else LEGACY_PREFIX ++ callableNamespace

/-- The name Codex's hook reports: sanitize and trim both parts, join them, ensure the legacy prefix. -/
def codexHookToolName (callableNamespace tool : JsString) : JsString :=
  withLegacyPrefix (trimCodexNamespace (codexNamespace callableNamespace) ++ js "__" ++
    trimCodexToolName (codexNamespace tool))

/-- The namespaces Codex reports for one spelling of a server: with and without the prefix, whole and truncated. -/
def hookNamespaceForms (base : JsString) : List JsString :=
  let prefixed := withLegacyPrefix base
  [base, prefixed, base.take CODEX_NAMESPACE_TRUNCATION_LIMIT, prefixed.take CODEX_NAMESPACE_TRUNCATION_LIMIT]

def codexHookNamespaces [LowerCase] (names : List JsString) : List JsString :=
  ((names.flatMap fun name => [name, codexNamespace name].eraseDups.flatMap hookNamespaceForms).map
    fun form => toLowerCase (trimCodexNamespace form)).filter (Truthy ·) |>.eraseDups

/-- `^<namespace>_+<hash>__(.*)$`: the tool part behind a namespace that carries the hash. Hexadecimal digits are no
underscores, so the run of underscores ends where the hash starts. -/
def hashedToolPart (entry callableNamespace : JsString) : Option JsString :=
  match callableNamespace.isPrefixOf? entry with
  | none => none
  | some rest =>
    let hashed := rest.dropWhile (· = UNDERSCORE)
    let hash := hashed.take COLLISION_HASH_LENGTH
    if rest.head? = some UNDERSCORE ∧ hash.length = COLLISION_HASH_LENGTH ∧ hash.all isHexDigit then
      match (js "__").isPrefixOf? (hashed.drop COLLISION_HASH_LENGTH) with
      | some tool => if tool.any isLineTerminator then none else some tool
      | none => none
    else none

def plainToolPart (entry callableNamespace : JsString) : Option JsString :=
  match (callableNamespace ++ js "__").isPrefixOf? entry with
  | some tool => if Truthy tool then some tool else none
  | none => none

structure DenialToolPart where
  tool : JsString
  hashed : Bool

def mcpDenialToolPart (entry : JsString) (namespaces : List JsString) : Option DenialToolPart :=
  match namespaces.findSome? (hashedToolPart entry) with
  | some tool => some ⟨tool, true⟩
  | none => (namespaces.findSome? (plainToolPart entry)).map (⟨·, false⟩)

/-- `(^|_)<hash>$`: a tool part nothing maps back to a stamped identity. -/
def isUnrecoverableToolPart (toolPart : JsString) : Bool :=
  let rest := toolPart.reverse.drop COLLISION_HASH_LENGTH
  let hash := toolPart.reverse.take COLLISION_HASH_LENGTH
  hash.length = COLLISION_HASH_LENGTH && hash.all isHexDigit && rest.head?.all (· = UNDERSCORE)

/-! ## Globs over the hash -/

/-- A position of a name: the character that stands there, or any hexadecimal digit. -/
inductive SlotCharacter
  | fixed (character : JsString)
  | hexDigit

/-- Whether a character can stand at a position. -/
def SlotCharacter.accepts (character : JsString) : SlotCharacter → Bool
  | .fixed expected => character = expected
  | .hexDigit => character.length = 1 && character.all isHexDigit

/-- The positions of a name with a hash between two fixed parts. -/
def hashSlots (before after : JsString) : List SlotCharacter :=
  (codePoints before).map .fixed ++ replicate COLLISION_HASH_LENGTH .hexDigit ++ (codePoints after).map .fixed

/-- A star extends every reachable point to the end of the name. -/
def extendReachable (seen : Bool) : List Bool → List Bool
  | [] => []
  | reachable :: rest => (seen || reachable) :: extendReachable (seen || reachable) rest

/-- A literal moves every reachable point over one position that accepts it. -/
def advanceReachable (token : JsString) (previous : Bool) : List SlotCharacter → List Bool → List Bool
  | slot :: slots, reachable :: rest =>
    (previous && slot.accepts token) :: advanceReachable token reachable slots rest
  | _, _ => []

/-- Consume one token: `atStart` says whether the pattern so far can end before the first position, the list at which
positions it can end. -/
def consumeToken (slots : List SlotCharacter) (state : Bool × List Bool) (token : JsString) : Bool × List Bool :=
  let (atStart, reachable) := state
  if token = [STAR] then (atStart, extendReachable atStart reachable)
  else (false, advanceReachable token atStart slots reachable)

def globMatchesHashSlot (pattern before after : JsString) : Bool :=
  let slots := hashSlots before after
  let (atStart, reachable) := (codePoints pattern).foldl (consumeToken slots) (true, slots.map fun _ => false)
  (reachable.getLast?).getD atStart

/-- The part of a pattern before its first star. -/
def globHead (pattern : JsString) : JsString :=
  pattern.takeWhile (· ≠ STAR)

/-- The part behind its last star. -/
def globTail (pattern : JsString) : JsString :=
  pattern.rtakeWhile (· ≠ STAR)

/-- Could one tool name satisfy both globs? -/
def patternsCanShareACall [LowerCase] (a b : JsString) : Bool :=
  let left := toLowerCase (trim a)
  let right := toLowerCase (trim b)
  if left = [] || right = [] || left = [STAR] || right = [STAR] then true
  else if STAR ∉ right then deniedBy [left] right
  else if STAR ∉ left then deniedBy [right] left
  else if !(globHead right).isPrefixOf (globHead left) && !(globHead left).isPrefixOf (globHead right) then false
  else (globTail right).isSuffixOf (globTail left) || (globTail left).isSuffixOf (globTail right)

end ClawWorks
