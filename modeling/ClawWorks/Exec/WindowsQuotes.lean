import Mathlib.Data.Nat.Bits
import ClawWorks.Exec.WindowsShell

/-!
# Quotes in Windows commands

The safety scan counts double quotes and knows no single ones; the tokenizer does not count a double quote that stands
inside single quotes.
-/

namespace ClawWorks.WindowsShell

open Bool List

/-! ## The state of the tokenizer -/

def Tokenizer.start : Tokenizer :=
  { tokens := [], buf := [], inDouble := false, inSingle := false, wasQuoted := false }

/-- The state behind a text. -/
def Tokenizer.after (t : Tokenizer) : JsString → Tokenizer
  | [] => t
  | ch :: rest =>
    if ch = QUOTE ∧ t.inSingle = false then
      Tokenizer.after { t with wasQuoted := t.wasQuoted || !t.inDouble, inDouble := !t.inDouble } rest
    else if ch = SINGLE_QUOTE ∧ t.inDouble = false then
      match rest with
      | next :: rest' =>
        if t.inSingle ∧ next = SINGLE_QUOTE then Tokenizer.after { t with buf := t.buf ++ [SINGLE_QUOTE] } rest'
        else
          Tokenizer.after { t with wasQuoted := t.wasQuoted || !t.inSingle, inSingle := !t.inSingle } (next :: rest')
      | [] => { t with wasQuoted := t.wasQuoted || !t.inSingle, inSingle := !t.inSingle }
    else if !t.inDouble && !t.inSingle && isWhiteSpace ch then Tokenizer.after t.pushToken rest
    else Tokenizer.after { t with buf := t.buf ++ [ch] } rest

def singleQuoted (inDouble inSingle : Bool) : JsString → Nat
  | [] => 0
  | ch :: rest =>
    if ch = QUOTE then
      if inSingle then singleQuoted inDouble inSingle rest + 1 else singleQuoted (!inDouble) inSingle rest
    else if ch = SINGLE_QUOTE ∧ inDouble = false then singleQuoted inDouble (!inSingle) rest
    else singleQuoted inDouble inSingle rest

theorem read_append {ch : UInt16} (h : ch ≠ SINGLE_QUOTE) (t : Tokenizer) (front back : JsString) :
    t.read (front ++ ch :: back) = (t.after front).read (ch :: back) := by
  fun_induction Tokenizer.after t front with
  | case1 => rfl
  | case2 t first front hquote ih =>
    rw [cons_append, Tokenizer.read.eq_def]
    simp only
    rw [if_pos hquote, ih]
  | case3 t first hquote hsingle next front hdoubled ih =>
    rw [cons_append, cons_append, Tokenizer.read, if_neg hquote, if_pos hsingle, if_pos hdoubled, ih]
  | case4 t first hquote hsingle next front hdoubled ih =>
    rw [cons_append, cons_append, Tokenizer.read, if_neg hquote, if_pos hsingle, if_neg hdoubled, ← cons_append, ih]
  | case5 t first hquote hsingle =>
    rw [singleton_append, Tokenizer.read, if_neg hquote, if_pos hsingle, if_neg fun hdoubled => h hdoubled.2]
  | case6 t first front hquote hsingle hspace ih =>
    rw [cons_append, Tokenizer.read.eq_def]
    simp only
    rw [if_neg hquote, if_neg hsingle, if_pos hspace, ih]
  | case7 t first front hquote hsingle hspace ih =>
    rw [cons_append, Tokenizer.read.eq_def]
    simp only
    rw [if_neg hquote, if_neg hsingle, if_neg hspace, ih]

theorem singleQuoted_single {inDouble inSingle : Bool} (h : inDouble = false) (rest : JsString) :
    singleQuoted inDouble inSingle (SINGLE_QUOTE :: rest) = singleQuoted inDouble (!inSingle) rest := by
  rw [singleQuoted, if_neg (by decide), if_pos ⟨rfl, h⟩]

theorem bodd_other {inDouble inSingle : Bool} {ch : UInt16} (hquote : ¬(ch = QUOTE ∧ inSingle = false))
    (hsingle : ¬(ch = SINGLE_QUOTE ∧ inDouble = false)) (rest : JsString) :
    ((ch :: rest).count QUOTE + singleQuoted inDouble inSingle (ch :: rest)).bodd =
      (rest.count QUOTE + singleQuoted inDouble inSingle rest).bodd := by
  rw [singleQuoted]
  by_cases hch : ch = QUOTE
  · have hin : inSingle := not_eq_false _ ▸ fun hin => hquote ⟨hch, hin⟩
    rw [if_pos hch, if_pos hin, hch, count_cons_self, ← Nat.add_assoc, Nat.add_right_comm _ 1, Nat.bodd_succ,
      Nat.bodd_succ, Bool.not_not]
  · rw [if_neg hch, if_neg hsingle, count_cons_of_ne hch]

theorem inDouble_after (t : Tokenizer) (text : JsString) : (t.after text).inDouble =
    (t.inDouble ^^ (text.count QUOTE + singleQuoted t.inDouble t.inSingle text).bodd) := by
  have hquotes : SINGLE_QUOTE ≠ QUOTE := by decide
  fun_induction Tokenizer.after t text with
  | case1 t => rw [count_nil, singleQuoted, Nat.bodd_zero, Bool.xor_false]
  | case2 t ch rest hquote ih =>
    obtain ⟨rfl, hsingle⟩ := hquote
    rw [ih, count_cons_self, singleQuoted, if_pos rfl, hsingle, Nat.add_right_comm, Nat.bodd_succ]
    simp
  | case3 t ch hquote hsingle next rest hdoubled ih =>
    obtain ⟨rfl, hdouble⟩ := hsingle
    obtain ⟨-, rfl⟩ := hdoubled
    rw [ih, count_cons_of_ne hquotes, count_cons_of_ne hquotes, singleQuoted_single hdouble,
      singleQuoted_single hdouble, Bool.not_not]
  | case4 t ch hquote hsingle next rest hdoubled ih =>
    obtain ⟨rfl, hdouble⟩ := hsingle
    rw [ih, count_cons_of_ne hquotes, singleQuoted_single hdouble]
  | case5 t ch hquote hsingle =>
    obtain ⟨rfl, hdouble⟩ := hsingle
    rw [singleQuoted_single hdouble, count_cons_of_ne hquotes, count_nil, singleQuoted, Nat.bodd_zero, Bool.xor_false]
  | case6 t ch rest hquote hsingle hspace ih =>
    have hpush : t.pushToken.inDouble = t.inDouble ∧ t.pushToken.inSingle = t.inSingle := by
      unfold Tokenizer.pushToken
      split <;> exact ⟨rfl, rfl⟩
    rw [ih, hpush.1, hpush.2, bodd_other hquote hsingle]
  | case7 t ch rest hquote hsingle hspace ih => rw [ih, bodd_other hquote hsingle]

/-! ## Metacharacters -/

def METACHARACTERS : JsString :=
  js "&|<>;^()!"

/-- Every metacharacter is inside double quotes, as the tokenizer reads them. -/
def MetacharactersQuoted (text : JsString) : Prop :=
  ∀ front ch back, text = front ++ ch :: back → ch ∈ METACHARACTERS → (Tokenizer.start.after front).inDouble = true

def SingleQuotedEven (text : JsString) : Prop :=
  ∀ front ch back, text = front ++ ch :: back → ch ∈ METACHARACTERS → (singleQuoted false false front).bodd = false

theorem bodd_count_of_scan {ch : UInt16} (hch : ch ∈ METACHARACTERS) {front back : JsString} {inDouble : Bool}
    (h : scanUnsupported inDouble (front ++ ch :: back) = none) : (inDouble ^^ (front.count QUOTE).bodd) := by
  have hmeta : ∀ ch ∈ METACHARACTERS, ch ≠ QUOTE ∧ ch ≠ DOLLAR ∧ WINDOWS_UNSUPPORTED_TOKENS.contains ch := by
    decide
  induction front generalizing inDouble with
  | nil =>
    obtain ⟨hquote, hdollar, hunsupported⟩ := hmeta ch hch
    rw [nil_append, scanUnsupported, if_neg hquote, if_neg hdollar, if_pos hunsupported] at h
    split at h
    · rename_i hin
      rw [(and_eq_true_iff.mp hin).1]
      rfl
    · split at h <;> cases h
  | cons first front ih =>
    rw [cons_append, scanUnsupported] at h
    split at h
    · rename_i hquote
      rw [hquote, count_cons_self, Nat.bodd_succ, ← Bool.not_xor_not, Bool.not_not]
      exact ih h
    rename_i hquote
    rw [count_cons_of_ne hquote]
    split at h
    · split at h
      · cases h
      · exact ih h
    split at h
    · split at h
      · exact ih h
      · split at h <;> cases h
    · exact ih h

/-- **The metacharacters of an accepted command are quoted exactly if** an even number of double quotes is inside single
quotes before each. -/
theorem metacharactersQuoted_iff {command : JsString} {argv : List JsString}
    (h : analyzeWindowsShellCommand command = .ok argv) :
    MetacharactersQuoted (stripWindowsShellWrapper (trim command)) ↔
      SingleQuotedEven (stripWindowsShellWrapper (trim command)) := by
  have hscan : findWindowsUnsupportedToken (stripWindowsShellWrapper (trim command)) = none := by
    unfold analyzeWindowsShellCommand at h
    dsimp only at h
    split at h
    · cases h
    · assumption
  refine forall₄_congr fun front ch back htext => forall_congr' fun hch => ?_
  rw [htext] at hscan
  have hodd := bodd_count_of_scan hch hscan
  rw [false_xor] at hodd
  rw [inDouble_after, Tokenizer.start, false_xor, Nat.bodd_add, hodd, true_xor, not_eq_true']

theorem metacharactersQuoted_iff_ampersand :
    analyzeWindowsShellCommand (js "echo \"a & b\"") = .ok [js "echo", js "a & b"] ∧
      (MetacharactersQuoted (stripWindowsShellWrapper (trim (js "echo \"a & b\""))) ↔
        SingleQuotedEven (stripWindowsShellWrapper (trim (js "echo \"a & b\"")))) := by
  have haccepted : analyzeWindowsShellCommand (js "echo \"a & b\"") = .ok [js "echo", js "a & b"] := by decide +kernel
  exact ⟨haccepted, metacharactersQuoted_iff haccepted⟩

/-- Between two double quotes that are each inside single ones the scan takes an operator for quoted. -/
theorem operator_accepted : ¬∀ command argv, analyzeWindowsShellCommand command = .ok argv →
    MetacharactersQuoted (stripWindowsShellWrapper (trim command)) := by
  intro hall
  have haccepted : analyzeWindowsShellCommand (js "echo '\"' & '\"'") = .ok [js "echo", js "\"", js "&", js "\""] := by
    decide +kernel
  have htext : stripWindowsShellWrapper (trim (js "echo '\"' & '\"'")) = js "echo '\"' " ++ js "& '\"'" := by
    decide +kernel
  exact absurd (hall _ _ haccepted (js "echo '\"' ") _ _ htext (by decide)) (by decide +kernel)

end ClawWorks.WindowsShell
