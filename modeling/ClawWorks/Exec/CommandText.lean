import ClawWorks.Exec.SystemRunCommand

/-!
# The text of a command
-/

namespace ClawWorks.Exec

open List

/-! ## Texts from an argument on -/

def SPACE : UInt16 := 32

def escapeQuotes (arg : JsString) : JsString :=
  arg.flatMap fun u => if u == DOUBLE_QUOTE then [BACKSLASH, DOUBLE_QUOTE] else [u]

/-- The text behind an argument. -/
def following : Argv → JsString
  | [] => []
  | arg :: argv => SPACE :: (formatArgument arg ++ following argv)

/-- No unit has to be quoted. -/
def Unquoted (arg : JsString) : Prop :=
  ∀ u ∈ arg, isWhiteSpace u = false ∧ u ≠ DOUBLE_QUOTE

variable {argv argv' : Argv} {arg arg' : JsString} {u : UInt16}

theorem formatArgument_cases (arg : JsString) : (Unquoted arg ∧ arg ≠ [] ∧ formatArgument arg = arg) ∨
    formatArgument arg = DOUBLE_QUOTE :: (escapeQuotes arg ++ [DOUBLE_QUOTE]) := by
  unfold formatArgument
  split
  · rename_i hempty
    rw [isEmpty_iff.mp hempty]
    exact Or.inr rfl
  · rename_i hne
    split
    · exact Or.inr rfl
    · rename_i hplain
      refine Or.inl ⟨fun u hu => ?_, fun hnil => hne (isEmpty_iff.mpr hnil), rfl⟩
      have hunit := Bool.eq_false_iff.mpr fun h => hplain (any_eq_true.mpr ⟨u, hu, h⟩)
      exact ⟨(Bool.or_eq_false_iff.mp hunit).1, beq_eq_false_iff_ne.mp (Bool.or_eq_false_iff.mp hunit).2⟩

theorem escapeQuotes_quote (arg : JsString) :
    escapeQuotes (DOUBLE_QUOTE :: arg) = BACKSLASH :: DOUBLE_QUOTE :: escapeQuotes arg := rfl

theorem escapeQuotes_cons (h : u ≠ DOUBLE_QUOTE) (arg : JsString) :
    escapeQuotes (u :: arg) = u :: escapeQuotes arg := by
  rw [escapeQuotes, flatMap_cons, if_neg (by simpa using h)]
  rfl

theorem formatExecCommand_cons (arg : JsString) (argv : Argv) :
    formatExecCommand (arg :: argv) = formatArgument arg ++ following argv := by
  unfold formatExecCommand
  induction argv generalizing arg with
  | nil => rw [map_singleton, intercalate_singleton, following, append_nil]
  | cons next argv ih =>
    rw [map_cons, map_cons, intercalate_cons_cons, ← map_cons, ih, following, append_assoc]
    rfl

theorem quote_front {rest rest' : JsString} (h : DOUBLE_QUOTE :: rest = escapeQuotes arg ++ DOUBLE_QUOTE :: rest') :
    arg = [] ∧ rest = rest' := by
  cases arg with
  | nil => exact ⟨rfl, (cons.inj h).2⟩
  | cons u arg =>
    by_cases hu : u = DOUBLE_QUOTE
    · rw [hu, escapeQuotes_quote] at h
      exact absurd (cons.inj h).1 (by decide)
    · rw [escapeQuotes_cons hu] at h
      exact absurd (cons.inj h).1.symm hu

theorem following_of_unquoted {plain : JsString} (hplain : Unquoted plain) {rest : JsString}
    (h : plain ++ following argv = escapeQuotes arg ++ DOUBLE_QUOTE :: rest) :
    ∃ inner, following argv = escapeQuotes inner ++ DOUBLE_QUOTE :: rest := by
  induction plain generalizing arg with
  | nil => exact ⟨arg, h⟩
  | cons u plain ih =>
    obtain ⟨⟨-, hu⟩, hplain⟩ := forall_mem_cons.mp hplain
    cases arg with
    | nil => exact absurd (cons.inj h).1 hu
    | cons v arg =>
      by_cases hv : v = DOUBLE_QUOTE
      · -- The escaped quote would have to follow what is not quoted.
        rw [hv, escapeQuotes_quote] at h
        replace h := (cons.inj h).2
        cases plain with
        | nil =>
          cases argv with
          | nil => cases h
          | cons next argv => exact absurd (cons.inj h).1 (by decide)
        | cons w plain => exact absurd (cons.inj h).1 (hplain w mem_cons_self).2
      · rw [escapeQuotes_cons hv] at h
        exact ih hplain (cons.inj h).2

theorem following_ne (arg : JsString) (argv argv' : Argv) :
    following argv ≠ escapeQuotes arg ++ DOUBLE_QUOTE :: following argv' := by
  generalize hcount : argv.length + argv'.length = count
  induction count generalizing arg argv argv' with
  | zero =>
    rw [eq_nil_of_length_eq_zero (Nat.add_eq_zero_iff.mp hcount).1]
    exact fun h => append_ne_nil_of_right_ne_nil _ (cons_ne_nil _ _) h.symm
  | succ count ih =>
    cases argv with
    | nil => exact fun h => append_ne_nil_of_right_ne_nil _ (cons_ne_nil _ _) h.symm
    | cons first argv =>
      intro h
      rw [length_cons, Nat.add_right_comm] at hcount
      have hcount := Nat.add_right_cancel hcount
      cases arg with
      | nil => exact absurd (cons.inj h).1 (by decide)
      | cons u arg =>
        by_cases hu : u = DOUBLE_QUOTE
        · rw [hu, escapeQuotes_quote] at h
          exact absurd (cons.inj h).1 (by decide)
        rw [escapeQuotes_cons hu] at h
        replace h := (cons.inj h).2
        rcases formatArgument_cases first with ⟨hplain, -, hfirst⟩ | hfirst
        · rw [hfirst] at h
          obtain ⟨inner, hinner⟩ := following_of_unquoted hplain h
          exact ih inner argv argv' hcount hinner
        · rw [hfirst, cons_append, append_assoc] at h
          obtain ⟨-, hrest⟩ := quote_front h
          exact ih first argv' argv ((Nat.add_comm _ _).trans hcount) hrest.symm

/-! ## In step -/

theorem unquoted_inj (hplain : Unquoted arg) (hplain' : Unquoted arg')
    (h : arg ++ following argv = arg' ++ following argv') : arg = arg' ∧ following argv = following argv' := by
  have hspace : ∀ {u : UInt16} {rest : JsString} {argv : Argv}, isWhiteSpace u = false →
      following argv ≠ u :: rest := by
    intro u rest argv hu hrest
    cases argv with
    | nil => cases hrest
    | cons next argv =>
      rw [← (cons.inj hrest).1] at hu
      exact absurd hu (by decide)
  induction arg generalizing arg' with
  | nil =>
    cases arg' with
    | nil => exact ⟨rfl, h⟩
    | cons v arg' => exact absurd h (hspace (hplain' v mem_cons_self).1)
  | cons u arg ih =>
    obtain ⟨hu, hplain⟩ := forall_mem_cons.mp hplain
    cases arg' with
    | nil => exact absurd h.symm (hspace hu.1)
    | cons v arg' =>
      obtain ⟨rfl, hrest⟩ := cons.inj h
      obtain ⟨rfl, hfollowing⟩ := ih hplain (forall_mem_cons.mp hplain').2 hrest
      exact ⟨rfl, hfollowing⟩

theorem escapeQuotes_inj
    (h : escapeQuotes arg ++ DOUBLE_QUOTE :: following argv = escapeQuotes arg' ++ DOUBLE_QUOTE :: following argv') :
    arg = arg' ∧ following argv = following argv' := by
  have hslip : ∀ {u : UInt16} {arg arg' : JsString} {argv argv' : Argv}, u ≠ DOUBLE_QUOTE →
      escapeQuotes (DOUBLE_QUOTE :: arg) ++ DOUBLE_QUOTE :: following argv ≠
        escapeQuotes (u :: arg') ++ DOUBLE_QUOTE :: following argv' := by
    intro u arg arg' argv argv' hu heq
    rw [escapeQuotes_quote, escapeQuotes_cons hu] at heq
    obtain ⟨-, hrest⟩ := quote_front (cons.inj heq).2
    exact following_ne arg argv' argv hrest.symm
  induction arg generalizing arg' with
  | nil =>
    obtain ⟨rfl, hrest⟩ := quote_front h
    exact ⟨rfl, hrest⟩
  | cons u arg ih =>
    cases arg' with
    | nil => exact absurd (quote_front h.symm).1 (cons_ne_nil _ _)
    | cons v arg' =>
      by_cases hu : u = DOUBLE_QUOTE
      · by_cases hv : v = DOUBLE_QUOTE
        · rw [hu, hv, escapeQuotes_quote, escapeQuotes_quote] at h
          obtain ⟨rfl, hrest⟩ := ih (cons.inj (cons.inj h).2).2
          exact ⟨by rw [hu, hv], hrest⟩
        · exact absurd (hu ▸ h) (hslip hv)
      · by_cases hv : v = DOUBLE_QUOTE
        · exact absurd (hv ▸ h.symm) (hslip hu)
        · rw [escapeQuotes_cons hu, escapeQuotes_cons hv] at h
          obtain ⟨rfl, hbody⟩ := cons.inj h
          obtain ⟨rfl, hrest⟩ := ih hbody
          exact ⟨rfl, hrest⟩

theorem formatArgument_inj (h : formatArgument arg ++ following argv = formatArgument arg' ++ following argv') :
    arg = arg' ∧ following argv = following argv' := by
  have hmixed : ∀ {arg arg' : JsString} {argv argv' : Argv}, Unquoted arg → arg ≠ [] →
      arg ++ following argv ≠ DOUBLE_QUOTE :: arg' ++ following argv' := by
    intro arg arg' argv argv' hplain hne heq
    obtain ⟨u, arg, rfl⟩ := exists_cons_of_ne_nil hne
    exact (hplain u mem_cons_self).2 (cons.inj heq).1
  rcases formatArgument_cases arg with ⟨hplain, hne, harg⟩ | harg
  · rcases formatArgument_cases arg' with ⟨hplain', -, harg'⟩ | harg'
    · rw [harg, harg'] at h
      exact unquoted_inj hplain hplain' h
    · rw [harg, harg'] at h
      exact absurd h (hmixed hplain hne)
  · rcases formatArgument_cases arg' with ⟨hplain', hne', harg'⟩ | harg'
    · rw [harg, harg'] at h
      exact absurd h.symm (hmixed hplain' hne')
    · rw [harg, harg', cons_append, cons_append, append_assoc, append_assoc] at h
      exact escapeQuotes_inj (cons.inj h).2

theorem following_inj (h : following argv = following argv') : argv = argv' := by
  induction argv generalizing argv' with
  | nil =>
    cases argv' with
    | nil => rfl
    | cons arg' argv' => cases h
  | cons arg argv ih =>
    cases argv' with
    | nil => cases h
    | cons arg' argv' =>
      obtain ⟨rfl, hrest⟩ := formatArgument_inj (cons.inj h).2
      rw [ih hrest]

theorem formatExecCommand_inj (h : formatExecCommand argv = formatExecCommand argv') : argv = argv' := by
  have hfollowing : ∀ {argv : Argv}, argv ≠ [] → following argv = SPACE :: formatExecCommand argv := by
    intro argv hne
    obtain ⟨arg, argv, rfl⟩ := exists_cons_of_ne_nil hne
    rw [formatExecCommand_cons, following]
  have hempty : ∀ {arg : JsString} {argv : Argv}, formatExecCommand (arg :: argv) ≠ [] := by
    intro arg argv hnil
    rw [formatExecCommand_cons] at hnil
    rcases formatArgument_cases arg with ⟨-, hne, harg⟩ | harg
    · exact hne (harg ▸ (append_eq_nil_iff.mp hnil).1)
    · rw [harg] at hnil
      cases hnil
  cases argv with
  | nil =>
    cases argv' with
    | nil => rfl
    | cons arg' argv' => exact absurd h.symm hempty
  | cons arg argv =>
    cases argv' with
    | nil => exact absurd h hempty
    | cons arg' argv' =>
      refine following_inj ?_
      rw [hfollowing (cons_ne_nil _ _), hfollowing (cons_ne_nil _ _), h]

def AcceptedAs [LowerCase] (rawCommand : Option JsString) (argv : Argv) : Prop :=
  ∃ platform allowLegacyShellText display,
    validateSystemRunCommandConsistency platform argv rawCommand allowLegacyShellText = .ok display ∧
      normalizeRawCommandText rawCommand = some display.commandText

/-- **A text is that of one vector**, so a raw command is accepted as the canonical text of one at most. -/
theorem formatExecCommand_identifies [LowerCase] :
    Function.Injective formatExecCommand ∧
      ∀ rawCommand argv argv', AcceptedAs rawCommand argv → AcceptedAs rawCommand argv' → argv = argv' := by
  refine ⟨fun argv argv' => formatExecCommand_inj, ?_⟩
  rintro rawCommand argv argv' ⟨platform, allow, display, hok, htext⟩ ⟨platform', allow', display', hok', htext'⟩
  have hcommand : ∀ {platform : Platform} {argv : Argv} {allow : Bool} {display : SystemRunCommandDisplay},
      validateSystemRunCommandConsistency platform argv rawCommand allow = .ok display →
        display.commandText = formatExecCommand argv := by
    intro platform argv allow display h
    unfold validateSystemRunCommandConsistency at h
    dsimp only at h
    split at h
    · cases h
      rfl
    · split at h
      · cases h
      · cases h
        rfl
  rw [htext, hcommand hok, hcommand hok'] at htext'
  exact formatExecCommand_inj (Option.some.inj htext')

end ClawWorks.Exec
