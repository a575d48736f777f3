import ClawWorks.Exec.DispatchWrappers
import ClawWorks.Js.Patterns

/-!
# Argument patterns

The pattern that is kept for the arguments of an approved call on Windows, and the calls that it matches.
-/

namespace ClawWorks.Exec

open List Matcher

/-! ## Patterns -/

def NUL : UInt16 := 0

/-- The characters that a pattern gives a meaning to. -/
def SYNTAX_CHARACTERS : JsString :=
  js ".*+?^$\x7b\x7d()|[]\\"

/-- The text that a pattern spells with characters and escaped ones. -/
def spelled : JsString → Option JsString
  | [] => some []
  | [u] => if SYNTAX_CHARACTERS.contains u then none else some [u]
  | u :: v :: source =>
    if u = BACKSLASH then if SYNTAX_CHARACTERS.contains v then (spelled source).map (v :: ·) else none
    else if SYNTAX_CHARACTERS.contains u then none
    else (spelled (v :: source)).map (u :: ·)

/-- `new RegExp(source)` with its `test`; `none` where it throws. -/
class RegExps where
  compile : JsString → Option (JsString → Bool)
  /-- Between `^` and `$` what spells a text matches that text. -/
  compile_spelled : ∀ source text, spelled source = some text →
    compile (js "^" ++ source ++ js "$") = some (· == text)

def escapeRegExpLiteral (input : JsString) : JsString :=
  input.flatMap fun u => if SYNTAX_CHARACTERS.contains u then [BACKSLASH, u] else [u]

/-- `arg.replace(/\//g, "\\")`. -/
def toBackslashes (arg : JsString) : JsString :=
  arg.map fun u => if u = SLASH then BACKSLASH else u

def buildArgPatternFromArgv (argv : Argv) (platform : Platform) : Option JsString :=
  if platform ≠ .win32 then none
  else
    let normalized := (argv.drop 1).map toBackslashes
    if normalized = [] then some (js "^\x00\x00$")
    else some (js "^" ++ escapeRegExpLiteral ([NUL].intercalate normalized) ++ js "\x00$")

def fileDescriptor : Matcher UInt16 :=
  unit fun u => (js "12").contains u

/-- `\s+(?:[12]>&[12]|[12]>\/dev\/null)\s*`. -/
def trailingRedirection : Matcher UInt16 :=
  seq (plus (unit isWhiteSpace)) <| seq (alt (seq fileDescriptor (seq (word (· == ·) (js ">&")) fileDescriptor))
      (seq fileDescriptor (word (· == ·) (js ">/dev/null"))))
    (star (unit isWhiteSpace))

def stripRedirections : Nat → JsString → JsString
  | 0, value => value
  | rounds + 1, value =>
    match value.tails.find? fun rest => (trailingRedirection rest).contains [] with
    | some rest => stripRedirections rounds (value.take (value.length - rest.length))
    | none => value

/-- Each round takes a redirection off, until none is left. -/
def stripTrailingRedirections (value : JsString) : JsString :=
  stripRedirections value.length value

/-- Zero arguments have two sentinels, others one at their end. -/
def argumentText (args : Argv) : JsString :=
  if args = [] then js "\x00\x00" else [NUL].intercalate args ++ [NUL]

def matchArgPattern [RegExps] (argPattern : JsString) (argv : Argv) (platform : Platform) : Bool :=
  let legacy := !argPattern.contains NUL
  let args := argv.drop 1
  let argsString := if legacy then (js " ").intercalate args else argumentText args
  match RegExps.compile argPattern with
  | none => false
  | some test =>
    test argsString ||
      (platform == .win32 && toBackslashes argsString != argsString && test (toBackslashes argsString)) ||
      (legacy && stripTrailingRedirections argsString != argsString && test (stripTrailingRedirections argsString))

section Text

variable {args args' : Argv}

theorem spelled_escape (text : JsString) : spelled (escapeRegExpLiteral text) = some text := by
  induction text with
  | nil => rfl
  | cons u text ih =>
    rw [escapeRegExpLiteral, flatMap_cons, ← escapeRegExpLiteral]
    split
    · rename_i hsyntax
      rw [cons_append, cons_append, nil_append, spelled, if_pos rfl, if_pos hsyntax, ih]
      rfl
    · rename_i hplain
      have hslash : u ≠ BACKSLASH := by
        rintro rfl
        exact hplain (by decide)
      rw [singleton_append]
      cases hrest : escapeRegExpLiteral text with
      | nil =>
        rw [hrest] at ih
        rw [spelled, if_neg hplain, ← Option.some.inj ih]
      | cons v rest =>
        rw [spelled, if_neg hslash, if_neg hplain, ← hrest, ih]
        rfl

theorem toBackslashes_idem (arg : JsString) : toBackslashes (toBackslashes arg) = toBackslashes arg := by
  rw [toBackslashes, toBackslashes, map_map]
  refine map_congr_left fun u _ => ?_
  simp only [Function.comp]
  split
  · decide
  · rfl

theorem nul_notMem_toBackslashes {arg : JsString} (h : NUL ∉ arg) : NUL ∉ toBackslashes arg := by
  intro hmem
  obtain ⟨u, hu, hnul⟩ := mem_map.mp hmem
  split at hnul
  · exact absurd hnul (by decide)
  · exact h (hnul ▸ hu)

theorem toBackslashes_argumentText (args : Argv) :
    toBackslashes (argumentText args) = argumentText (args.map toBackslashes) := by
  have hjoin : toBackslashes ([NUL].intercalate args) = [NUL].intercalate (args.map toBackslashes) := by
    induction args with
    | nil => rfl
    | cons arg args ih =>
      cases args with
      | nil => rw [intercalate_singleton, map_singleton, intercalate_singleton]
      | cons next args =>
        rw [map_cons, map_cons, intercalate_cons_cons, intercalate_cons_cons, ← map_cons,
          ← ih, toBackslashes, map_append, map_append]
        rfl
  unfold argumentText
  cases args with
  | nil => rfl
  | cons arg args =>
    rw [if_neg (cons_ne_nil _ _), if_neg (by simp), ← hjoin, toBackslashes, map_append]
    rfl

/-- **Two lists have one text** only if they are one, or one is empty and the other two empty arguments. -/
theorem argumentText_eq_iff (h : ∀ arg ∈ args, NUL ∉ arg) (h' : ∀ arg ∈ args', NUL ∉ arg) :
    argumentText args = argumentText args' ↔
      args = args' ∨ (args = [] ∧ args' = [[], []]) ∨ (args' = [] ∧ args = [[], []]) := by
  have hempty : ∀ {args : Argv}, (∀ arg ∈ args, NUL ∉ arg) → args ≠ [] → argumentText args = js "\x00\x00" →
      args = [[], []] := by
    intro args h hne htext
    rw [argumentText, if_neg hne] at htext
    have hsplit := splitOn_intercalate NUL h hne
    rw [(append_inj' (htext.trans (rfl : _ = [NUL] ++ [NUL])) rfl).1] at hsplit
    rw [← hsplit]
    rfl
  constructor
  · intro htext
    by_cases hnil : args = []
    · by_cases hnil' : args' = []
      · exact .inl (hnil.trans hnil'.symm)
      · exact .inr (.inl ⟨hnil, hempty h' hnil' (by rw [← htext, argumentText, if_pos hnil])⟩)
    · by_cases hnil' : args' = []
      · exact .inr (.inr ⟨hnil', hempty h hnil (by rw [htext, argumentText, if_pos hnil'])⟩)
      · rw [argumentText, argumentText, if_neg hnil, if_neg hnil'] at htext
        left
        rw [← splitOn_intercalate NUL h hnil, ← splitOn_intercalate NUL h' hnil', (append_inj' htext rfl).1]
  · rintro (rfl | ⟨rfl, rfl⟩ | ⟨rfl, rfl⟩)
    · rfl
    · rfl
    · rfl

end Text

/-- A call is matched by the pattern of another. -/
def Matches [RegExps] (approved argv : Argv) : Prop :=
  ∃ pattern ∈ buildArgPatternFromArgv approved .win32, matchArgPattern pattern argv .win32 = true

theorem matches_iff [RegExps] (approved argv : Argv) : Matches approved argv ↔
    argumentText ((argv.drop 1).map toBackslashes) = argumentText ((approved.drop 1).map toBackslashes) := by
  have hbuild : buildArgPatternFromArgv approved .win32 =
      some (js "^" ++ escapeRegExpLiteral (argumentText ((approved.drop 1).map toBackslashes)) ++ js "$") := by
    unfold buildArgPatternFromArgv argumentText
    rw [if_neg (fun h => h rfl)]
    dsimp only
    split
    · rfl
    · rw [escapeRegExpLiteral, escapeRegExpLiteral, flatMap_append]
      simp only [append_assoc]
      rfl
  have hnul : NUL ∈ argumentText ((approved.drop 1).map toBackslashes) := by
    unfold argumentText
    split
    · decide
    · exact mem_append_right _ mem_cons_self
  have hslashes : toBackslashes (argumentText ((approved.drop 1).map toBackslashes)) =
      argumentText ((approved.drop 1).map toBackslashes) := by
    rw [← toBackslashes_argumentText, toBackslashes_idem]
  rw [Matches, hbuild, ← toBackslashes_argumentText (argv.drop 1)]
  generalize argumentText ((approved.drop 1).map toBackslashes) = text at hnul hslashes
  have hcontains : (js "^" ++ escapeRegExpLiteral text ++ js "$").contains NUL :=
    contains_iff_mem.mpr (mem_append_left _ (mem_append_right _ (mem_flatMap.mpr ⟨NUL, hnul, by decide⟩)))
  have hmatch : matchArgPattern (js "^" ++ escapeRegExpLiteral text ++ js "$") argv .win32 ↔
      argumentText (argv.drop 1) = text ∨ toBackslashes (argumentText (argv.drop 1)) ≠ argumentText (argv.drop 1) ∧
        toBackslashes (argumentText (argv.drop 1)) = text := by
    unfold matchArgPattern
    rw [RegExps.compile_spelled _ _ (spelled_escape text), hcontains]
    simp
  constructor
  · rintro ⟨pattern, ⟨⟩, hmatched⟩
    rcases hmatch.mp hmatched with hsame | ⟨-, hread⟩
    · rw [hsame, hslashes]
    · exact hread
  · intro hread
    refine ⟨_, rfl, hmatch.mpr ?_⟩
    by_cases hsame : toBackslashes (argumentText (argv.drop 1)) = argumentText (argv.drop 1)
    · exact .inl (hsame.symm.trans hread)
    · exact .inr ⟨hsame, hread⟩

/-- **A pattern matches just the approved arguments** up to slashes, but for no arguments and two empty ones. -/
theorem argPattern_exact_iff [RegExps] (command command' : JsString) {args args' : Argv} (h : ∀ arg ∈ args, NUL ∉ arg)
    (h' : ∀ arg ∈ args', NUL ∉ arg) :
    (Matches (command :: args) (command' :: args') ↔ args.map toBackslashes = args'.map toBackslashes) ↔
      ¬((args = [] ∧ args' = [[], []]) ∨ (args' = [] ∧ args = [[], []])) := by
  have hnul : ∀ {args : Argv}, (∀ arg ∈ args, NUL ∉ arg) → ∀ arg ∈ args.map toBackslashes, NUL ∉ arg :=
    fun h => forall_mem_map.mpr fun arg harg => nul_notMem_toBackslashes (h arg harg)
  have hempty : ∀ args : Argv, args.map toBackslashes = [[], []] ↔ args = [[], []] := by
    intro args
    simp [map_eq_cons_iff, toBackslashes]
  rw [matches_iff, drop_one, drop_one, tail_cons, tail_cons,
    argumentText_eq_iff (hnul h') (hnul h), hempty, hempty, map_eq_nil_iff, map_eq_nil_iff]
  constructor
  · rintro hexact (⟨rfl, rfl⟩ | ⟨rfl, rfl⟩)
    · exact absurd (hexact.mp (Or.inr (Or.inr ⟨rfl, rfl⟩))) (by decide)
    · exact absurd (hexact.mp (Or.inr (Or.inl ⟨rfl, rfl⟩))) (by decide)
  · intro hother
    constructor
    · rintro (hsame | htwo | htwo)
      · exact hsame.symm
      · exact absurd (Or.inr htwo) hother
      · exact absurd (Or.inl htwo) hother
    · exact fun hsame => Or.inl hsame.symm

/-- Regular expressions that know nothing but texts. -/
abbrev textRegExps : RegExps where
  compile source := (spelled (source.drop 1).dropLast).map fun text => (· == text)
  compile_spelled source text h := by
    have hends : js "^" = [94] ∧ js "$" = [36] := ⟨rfl, rfl⟩
    rw [hends.1, hends.2, append_assoc, singleton_append, drop_one, tail_cons, dropLast_concat, h]
    rfl

theorem argPattern_exact_iff_slash : (∀ arg ∈ [js "a/b"], NUL ∉ arg) ∧ (∀ arg ∈ [js "a\\b"], NUL ∉ arg) ∧
    ((@Matches textRegExps (js "type" :: [js "a/b"]) (js "type" :: [js "a\\b"]) ↔
        [js "a/b"].map toBackslashes = [js "a\\b"].map toBackslashes) ↔
      ¬(([js "a/b"] = [] ∧ [js "a\\b"] = [[], []]) ∨ ([js "a\\b"] = [] ∧ [js "a/b"] = [[], []]))) :=
  ⟨by decide, by decide, @argPattern_exact_iff textRegExps _ _ _ _ (by decide) (by decide)⟩

/-- What was approved without arguments runs with two empty ones. -/
theorem empty_arguments_matched : ¬∀ (regExps : RegExps) (command : JsString) (args args' : Argv),
    (∀ arg ∈ args, NUL ∉ arg) → (∀ arg ∈ args', NUL ∉ arg) →
      (@Matches regExps (command :: args) (command :: args') ↔ args.map toBackslashes = args'.map toBackslashes) := by
  intro hall
  have hmatched : @Matches textRegExps [js "type"] [js "type", [], []] := ⟨_, rfl, by decide⟩
  exact absurd ((hall textRegExps (js "type") [] [[], []] (by decide) (by decide)).mp hmatched) (by decide)

end ClawWorks.Exec
