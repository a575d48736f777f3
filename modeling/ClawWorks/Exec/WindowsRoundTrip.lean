import ClawWorks.Exec.WindowsShell

/-!
# Rebuilt Windows commands

A command that was rebuilt from a planned vector, read again.
-/

namespace ClawWorks.WindowsShell

open List Matcher

variable {u : UInt16}

theorem isPlainUnit_iff : isPlainUnit u ↔
    48 ≤ u.toNat ∧ u.toNat ≤ 57 ∨ 97 ≤ u.toNat ∧ u.toNat ≤ 122 ∨ 65 ≤ u.toNat ∧ u.toNat ≤ 90 ∨ u.toNat = 95 ∨
      u.toNat = 46 ∨ u.toNat = 47 ∨ u.toNat = 58 ∨ u.toNat = 126 ∨ u.toNat = 92 ∨ u.toNat = 61 ∨ u.toNat = 45 := by
  have hmarks : js "_./:~\\=-" = [95, 46, 47, 58, 126, 92, 61, 45] := by decide
  simp only [isPlainUnit, hmarks, Bool.or_eq_true, isAlphanumeric_iff, contains_iff_mem, mem_cons,
    not_mem_nil, or_false, ← UInt16.toNat_inj, or_assoc]
  simp

theorem plain_ne {u v : UInt16} (h : isPlainUnit u) (hv : isPlainUnit v = false) : u ≠ v := by
  rintro rfl
  rw [h] at hv
  cases hv

theorem plain_not_blank (h : isPlainUnit u) : isWhiteSpace u = false := by
  have hu := isPlainUnit_iff.mp h
  exact isWhiteSpace_of_printable (by omega) (by omega)

theorem plain_supported (h : isPlainUnit u) : WINDOWS_UNSUPPORTED_TOKENS.contains u = false := by
  have hmarks : ∀ v ∈ WINDOWS_UNSUPPORTED_TOKENS, isPlainUnit v = false := by decide
  by_contra hin
  rw [Bool.not_eq_false, contains_iff_mem] at hin
  exact absurd ((hmarks u hin).symm.trans h) (by decide)

/-- What an argument is rendered to. -/
inductive Escaped : JsString → JsString → Prop
  | plain {value : JsString} (hne : value ≠ []) (hplain : ∀ u ∈ value, isPlainUnit u = true) : Escaped value value
  | quoted {value : JsString} (hsafe : hasUnsafeCmdMeta value = false) :
      Escaped value (QUOTE :: doubleQuotes value ++ [QUOTE])

variable {value escaped : JsString}

theorem escaped_of_windowsEscapeArg (h : windowsEscapeArg value = some escaped) : Escaped value escaped := by
  unfold windowsEscapeArg at h
  split at h
  · rename_i hnil
    obtain rfl := Option.some.inj h
    subst hnil
    exact Escaped.quoted rfl
  rename_i hne
  split at h
  · cases h
  rename_i hsafe
  split at h
  · rename_i hplain
    obtain rfl := Option.some.inj h
    exact Escaped.plain hne (all_eq_true.mp hplain)
  · obtain rfl := Option.some.inj h
    exact Escaped.quoted (by simpa using hsafe)

def withoutQuotes (value : JsString) : JsString :=
  value.filter (· != QUOTE)

theorem withoutQuotes_eq_self_iff {value : JsString} : withoutQuotes value = value ↔ QUOTE ∉ value := by
  rw [withoutQuotes, filter_eq_self]
  constructor
  · intro h hmem
    exact absurd (h QUOTE hmem) (by decide)
  · intro h u hu
    rw [bne_iff_ne]
    rintro rfl
    exact h hu

/-! ## Tokens of a rendered vector -/

theorem Tokenizer.read_cons (t : Tokenizer) {ch : UInt16} (h : ¬(ch = SINGLE_QUOTE ∧ t.inDouble = false))
    (rest : JsString) :
    t.read (ch :: rest) = if ch = QUOTE ∧ t.inSingle = false then
        Tokenizer.read { t with wasQuoted := t.wasQuoted || !t.inDouble, inDouble := !t.inDouble } rest
      else if !t.inDouble && !t.inSingle && isWhiteSpace ch then Tokenizer.read t.pushToken rest
      else Tokenizer.read { t with buf := t.buf ++ [ch] } rest := by
  rw [Tokenizer.read.eq_def]
  simp only [if_neg h]

open Tokenizer

def Tokenizer.bare (tokens : List JsString) (buf : JsString) (wasQuoted : Bool) : Tokenizer :=
  ⟨tokens, buf, false, false, wasQuoted⟩

def Tokenizer.quoted (tokens : List JsString) (buf : JsString) : Tokenizer :=
  ⟨tokens, buf, true, false, true⟩

variable (tokens : List JsString)

theorem Tokenizer.read_open (buf : JsString) (wasQuoted : Bool) (rest : JsString) :
    (bare tokens buf wasQuoted).read (QUOTE :: rest) = (quoted tokens buf).read rest := by
  rw [read_cons _ fun h => absurd h.1 (by decide), if_pos ⟨rfl, rfl⟩]
  cases wasQuoted <;> rfl

theorem Tokenizer.read_close (buf rest : JsString) :
    (quoted tokens buf).read (QUOTE :: rest) = (bare tokens buf true).read rest := by
  rw [read_cons _ fun h => absurd h.1 (by decide), if_pos ⟨rfl, rfl⟩]
  rfl

theorem Tokenizer.read_inside (buf : JsString) (hu : u ≠ QUOTE) (rest : JsString) :
    (quoted tokens buf).read (u :: rest) = (quoted tokens (buf ++ [u])).read rest := by
  rw [read_cons _ fun h => Bool.noConfusion h.2, if_neg fun h => hu h.1]
  rfl

theorem Tokenizer.read_outside (buf : JsString) (wasQuoted : Bool) (hu : isPlainUnit u) (rest : JsString) :
    (bare tokens buf wasQuoted).read (u :: rest) =
      (bare tokens (buf ++ [u]) wasQuoted).read rest := by
  rw [read_cons _ fun h => plain_ne hu (by decide) h.1, if_neg fun h => plain_ne hu (by decide) h.1,
    plain_not_blank hu, Bool.and_false]
  rfl

variable {wasQuoted : Bool}

theorem Tokenizer.pushToken_bare (buf : JsString) (htoken : buf ≠ [] ∨ wasQuoted) :
    (bare tokens buf wasQuoted).pushToken = bare (tokens ++ [buf]) [] false :=
  if_pos htoken

theorem Tokenizer.read_blank (buf : JsString) (htoken : buf ≠ [] ∨ wasQuoted) (rest : JsString) :
    (bare tokens buf wasQuoted).read (SPACE :: rest) =
      (bare (tokens ++ [buf]) [] false).read rest := by
  have hblank : (!false && !false && isWhiteSpace SPACE) := by decide
  rw [read_cons _ fun h => absurd h.1 (by decide), if_neg fun h => absurd h.1 (by decide)]
  show (if (!false && !false && isWhiteSpace SPACE) then _ else _) = _
  rw [if_pos hblank, pushToken_bare tokens buf htoken]

theorem Tokenizer.read_end (buf : JsString) (htoken : buf ≠ [] ∨ wasQuoted) :
    (bare tokens buf wasQuoted).read [] = some (tokens ++ [buf]) := by
  rw [Tokenizer.read, finish, pushToken_bare tokens buf htoken]
  show (if tokens ++ [buf] = [] then none else some (tokens ++ [buf])) = some (tokens ++ [buf])
  rw [if_neg (append_ne_nil_of_right_ne_nil tokens (cons_ne_nil buf []))]

theorem read_plain {value : JsString} (h : ∀ u ∈ value, isPlainUnit u) (tokens : List JsString) (buf : JsString)
    (wasQuoted : Bool) (rest : JsString) : (bare tokens buf wasQuoted).read (value ++ rest) =
      (bare tokens (buf ++ value) wasQuoted).read rest := by
  induction value generalizing buf with
  | nil => rw [nil_append, append_nil]
  | cons u value ih =>
    rw [cons_append, read_outside tokens buf wasQuoted (h u mem_cons_self),
      ih (fun v hv => h v (mem_cons_of_mem _ hv)), append_assoc]
    rfl

theorem read_doubleQuotes (value : JsString) (tokens : List JsString) (buf rest : JsString) :
    (Tokenizer.quoted tokens buf).read (doubleQuotes value ++ rest) =
      (Tokenizer.quoted tokens (buf ++ withoutQuotes value)).read rest := by
  induction value generalizing buf with
  | nil => rw [doubleQuotes, withoutQuotes, flatMap_nil, filter_nil, nil_append, append_nil]
  | cons u value ih =>
    by_cases hu : u = QUOTE
    · subst hu
      have hcons : doubleQuotes (QUOTE :: value) ++ rest = QUOTE :: QUOTE :: (doubleQuotes value ++ rest) := rfl
      have hstrip : withoutQuotes (QUOTE :: value) = withoutQuotes value := rfl
      rw [hcons, hstrip, Tokenizer.read_close, Tokenizer.read_open, ih]
    · have hcons : doubleQuotes (u :: value) ++ rest = u :: (doubleQuotes value ++ rest) := by
        simp [doubleQuotes, hu]
      have hstrip : withoutQuotes (u :: value) = u :: withoutQuotes value := by
        simp [withoutQuotes, hu]
      rw [hcons, hstrip, Tokenizer.read_inside tokens buf hu, ih, append_assoc]
      rfl

theorem read_escaped (h : Escaped value escaped) (tokens : List JsString) (rest : JsString) :
    ∃ wasQuoted, (withoutQuotes value ≠ [] ∨ wasQuoted = true) ∧
      (Tokenizer.bare tokens [] false).read (escaped ++ rest) =
        (Tokenizer.bare tokens (withoutQuotes value) wasQuoted).read rest := by
  cases h with
  | plain hne hplain =>
    have hself : withoutQuotes value = value := by
      rw [withoutQuotes_eq_self_iff]
      intro hmem
      exact plain_ne (hplain QUOTE hmem) (by decide : isPlainUnit QUOTE = false) rfl
    refine ⟨false, .inl (by rwa [hself]), ?_⟩
    rw [read_plain hplain, hself, nil_append]
  | quoted hsafe =>
    refine ⟨true, .inr rfl, ?_⟩
    have hshape : QUOTE :: doubleQuotes value ++ [QUOTE] ++ rest =
        QUOTE :: (doubleQuotes value ++ (QUOTE :: rest)) := by
      simp
    rw [hshape, Tokenizer.read_open, read_doubleQuotes, Tokenizer.read_close, nil_append]

variable {argv parts : List JsString}

theorem read_rendered (h : List.Forall₂ Escaped argv parts) (hne : argv ≠ []) (tokens : List JsString) :
    (bare tokens [] false).read (joinSpaced parts) = some (tokens ++ argv.map withoutQuotes) := by
  induction h generalizing tokens with
  | nil => exact absurd rfl hne
  | @cons value part argv parts hpart hparts ih =>
    cases hparts with
    | nil =>
      obtain ⟨wasQuoted, htoken, hread⟩ := read_escaped hpart tokens []
      rw [append_nil] at hread
      rw [joinSpaced, hread, read_end _ _ htoken]
      rfl
    | @cons next nextPart argv parts hnext hparts =>
      obtain ⟨wasQuoted, htoken, hread⟩ := read_escaped hpart tokens (SPACE :: joinSpaced (nextPart :: parts))
      rw [joinSpaced, hread, read_blank _ _ htoken, ih (cons_ne_nil _ _), append_assoc]
      rfl

theorem tokenize_rendered (h : List.Forall₂ Escaped argv parts) (hne : argv ≠ []) :
    tokenizeWindowsSegment (joinSpaced parts) = some (argv.map withoutQuotes) :=
  read_rendered h hne []

/-! ## Unsupported tokens of a rendered vector -/

def HasLineBreak (value : JsString) : Prop :=
  ∃ u ∈ value, u = NEWLINE ∨ u = CARRIAGE_RETURN

theorem not_hasLineBreak_nil : ¬HasLineBreak [] := by
  rintro ⟨u, hu, -⟩
  cases hu

theorem hasLineBreak_cons {value : JsString} (hu : ¬(u = NEWLINE ∨ u = CARRIAGE_RETURN)) :
    HasLineBreak (u :: value) ↔ HasLineBreak value := by
  constructor
  · rintro ⟨v, hv, hbreak⟩
    rcases mem_cons.mp hv with rfl | hv
    · exact absurd hbreak hu
    · exact ⟨v, hv, hbreak⟩
  · rintro ⟨v, hv, hbreak⟩
    exact ⟨v, mem_cons_of_mem _ hv, hbreak⟩

variable {rest : JsString}

theorem scan_skip {inDouble : Bool} (hquote : u ≠ QUOTE)
    (hdollar : u = DOLLAR → rest.head?.any startsExpansion = false)
    (hsafe : WINDOWS_UNSUPPORTED_TOKENS.contains u → inDouble ∧ WINDOWS_ALWAYS_UNSAFE_TOKENS.contains u = false) :
    scanUnsupported inDouble (u :: rest) = scanUnsupported inDouble rest := by
  rw [scanUnsupported, if_neg hquote]
  by_cases hd : u = DOLLAR
  · rw [if_pos hd, hdollar hd, if_neg Bool.false_ne_true]
  rw [if_neg hd]
  by_cases hin : WINDOWS_UNSUPPORTED_TOKENS.contains u
  · obtain ⟨hdouble, halways⟩ := hsafe hin
    rw [if_pos hin, hdouble, halways]
    rfl
  · rw [if_neg hin]

theorem scan_plain {value : JsString} (h : ∀ u ∈ value, isPlainUnit u) (rest : JsString) :
    scanUnsupported false (value ++ rest) = scanUnsupported false rest := by
  induction value with
  | nil => rfl
  | cons u value ih =>
    have hu := h u mem_cons_self
    have hskip : scanUnsupported false (u :: (value ++ rest)) = scanUnsupported false (value ++ rest) := by
      refine scan_skip (plain_ne hu (by decide)) (fun hdollar => absurd hdollar (plain_ne hu (by decide))) ?_
      intro hin
      rw [plain_supported hu] at hin
      cases hin
    rw [cons_append, hskip, ih fun v hv => h v (mem_cons_of_mem _ hv)]

theorem unsafe_cons {value : JsString} (h : hasUnsafeCmdMeta (u :: value) = false) :
    u ≠ 37 ∧ u ≠ 96 ∧ (u = DOLLAR → value.head?.any startsExpansion = false) ∧ hasUnsafeCmdMeta value = false := by
  simp only [hasUnsafeCmdMeta, Bool.or_eq_false_iff, beq_eq_false_iff_ne, ne_eq, Bool.and_eq_false_iff] at h
  obtain ⟨⟨⟨hpercent, htick⟩, hdollar⟩, hrest⟩ := h
  refine ⟨hpercent, htick, fun hu => ?_, hrest⟩
  rcases hdollar with hdollar | hdollar
  · exact absurd hu hdollar
  · exact hdollar

theorem always_unsafe_iff : WINDOWS_ALWAYS_UNSAFE_TOKENS.contains u ↔
    (u = NEWLINE ∨ u = CARRIAGE_RETURN) ∨ u = 37 ∨ u = 96 := by
  have hmarks : WINDOWS_ALWAYS_UNSAFE_TOKENS = [NEWLINE, CARRIAGE_RETURN, 37, 96] := by decide
  simp only [hmarks, contains_iff_mem, mem_cons, not_mem_nil, or_false, or_assoc]

theorem head_doubleQuotes (value rest : JsString) (hrest : rest.head?.any startsExpansion = false)
    (h : value.head?.any startsExpansion = false) :
    (doubleQuotes value ++ rest).head?.any startsExpansion = false := by
  cases value with
  | nil => exact hrest
  | cons u value =>
    by_cases hu : u = QUOTE
    · subst hu
      rfl
    · have hcons : doubleQuotes (u :: value) = u :: doubleQuotes value := by simp [doubleQuotes, hu]
      rw [hcons]
      exact h

theorem scan_lineBreak (inDouble : Bool) (hu : u = NEWLINE ∨ u = CARRIAGE_RETURN) (rest : JsString) :
    scanUnsupported inDouble (u :: rest) = some (js "newline") := by
  rcases hu with rfl | rfl
  · rw [scanUnsupported, if_neg (by decide), if_neg (by decide), if_pos (by decide)]
    have halways : WINDOWS_ALWAYS_UNSAFE_TOKENS.contains NEWLINE := by decide
    rw [halways, Bool.not_true, Bool.and_false, if_neg Bool.false_ne_true, if_pos (.inl rfl)]
  · rw [scanUnsupported, if_neg (by decide), if_neg (by decide), if_pos (by decide)]
    have halways : WINDOWS_ALWAYS_UNSAFE_TOKENS.contains CARRIAGE_RETURN := by decide
    rw [halways, Bool.not_true, Bool.and_false, if_neg Bool.false_ne_true, if_pos (.inr rfl)]

theorem scan_doubleQuotes {value : JsString} (hsafe : hasUnsafeCmdMeta value = false) (rest : JsString) :
    (HasLineBreak value → scanUnsupported true (doubleQuotes value ++ QUOTE :: rest) = some (js "newline")) ∧
    (¬HasLineBreak value →
      scanUnsupported true (doubleQuotes value ++ QUOTE :: rest) = scanUnsupported true (QUOTE :: rest)) := by
  induction value with
  | nil => exact ⟨fun h => absurd h not_hasLineBreak_nil, fun _ => rfl⟩
  | cons u value ih =>
    obtain ⟨hpercent, htick, hdollar, hsafe⟩ := unsafe_cons hsafe
    by_cases hu : u = QUOTE
    · subst hu
      have hcons : scanUnsupported true (doubleQuotes (QUOTE :: value) ++ QUOTE :: rest) =
          scanUnsupported true (doubleQuotes value ++ QUOTE :: rest) := rfl
      rw [hasLineBreak_cons (by decide), hcons]
      exact ih hsafe
    · have hcons : doubleQuotes (u :: value) ++ QUOTE :: rest = u :: (doubleQuotes value ++ QUOTE :: rest) := by
        simp [doubleQuotes, hu]
      rw [hcons]
      by_cases hbreak : u = NEWLINE ∨ u = CARRIAGE_RETURN
      · exact ⟨fun _ => scan_lineBreak true hbreak _, fun h => absurd ⟨u, mem_cons_self, hbreak⟩ h⟩
      have hskip : scanUnsupported true (u :: (doubleQuotes value ++ QUOTE :: rest)) =
          scanUnsupported true (doubleQuotes value ++ QUOTE :: rest) := by
        refine scan_skip hu (fun hd => head_doubleQuotes value _ rfl (hdollar hd)) fun _ => ⟨rfl, ?_⟩
        by_contra halways
        rw [Bool.not_eq_false, always_unsafe_iff] at halways
        rcases halways with h | h | h
        · exact hbreak h
        · exact hpercent h
        · exact htick h
      rw [hasLineBreak_cons hbreak, hskip]
      exact ih hsafe

theorem scan_escaped (h : Escaped value escaped) (rest : JsString) :
    (HasLineBreak value → scanUnsupported false (escaped ++ rest) = some (js "newline")) ∧
    (¬HasLineBreak value → scanUnsupported false (escaped ++ rest) = scanUnsupported false rest) := by
  cases h with
  | plain hne hplain =>
    refine ⟨?_, fun _ => scan_plain hplain rest⟩
    rintro ⟨u, hu, hbreak⟩
    rcases hbreak with rfl | rfl
    · exact absurd rfl (plain_ne (hplain _ hu) (by decide : isPlainUnit NEWLINE = false))
    · exact absurd rfl (plain_ne (hplain _ hu) (by decide : isPlainUnit CARRIAGE_RETURN = false))
  | quoted hsafe =>
    have hshape : scanUnsupported false (QUOTE :: doubleQuotes value ++ [QUOTE] ++ rest) =
        scanUnsupported true (doubleQuotes value ++ QUOTE :: rest) := by
      rw [cons_append, cons_append, append_assoc]
      rfl
    rw [hshape]
    exact scan_doubleQuotes hsafe rest

theorem findUnsupported_rendered (h : List.Forall₂ Escaped argv parts) :
    findWindowsUnsupportedToken (joinSpaced parts) = none ↔ ∀ value ∈ argv, ¬HasLineBreak value := by
  unfold findWindowsUnsupportedToken
  induction h with
  | nil => exact ⟨fun _ value hvalue => absurd hvalue not_mem_nil, fun _ => rfl⟩
  | @cons value part argv parts hpart hparts ih =>
    have htail : scanUnsupported false (joinSpaced (part :: parts)) = none ↔
        ¬HasLineBreak value ∧ scanUnsupported false (joinSpaced parts) = none := by
      cases hparts with
      | nil =>
        obtain ⟨hbreak, hnone⟩ := scan_escaped hpart []
        rw [append_nil] at hbreak hnone
        show scanUnsupported false part = none ↔ ¬HasLineBreak value ∧ scanUnsupported false [] = none
        by_cases hvalue : HasLineBreak value
        · rw [hbreak hvalue]
          exact ⟨fun h => absurd h (Option.some_ne_none _), fun h => absurd hvalue h.1⟩
        · rw [hnone hvalue]
          exact ⟨fun h => ⟨hvalue, h⟩, fun h => h.2⟩
      | @cons next nextPart argv parts hnext hparts =>
        obtain ⟨hbreak, hnone⟩ := scan_escaped hpart (SPACE :: joinSpaced (nextPart :: parts))
        by_cases hvalue : HasLineBreak value
        · rw [joinSpaced, hbreak hvalue]
          exact ⟨fun h => absurd h (Option.some_ne_none _), fun h => absurd hvalue h.1⟩
        · have hspace : scanUnsupported false (SPACE :: joinSpaced (nextPart :: parts)) =
              scanUnsupported false (joinSpaced (nextPart :: parts)) := rfl
          rw [joinSpaced, hnone hvalue, hspace]
          exact ⟨fun h => ⟨hvalue, h⟩, fun h => h.2⟩
    rw [htail, ih, forall_mem_cons]

/-! ## The wrapper of a rendered vector -/

/-- A unit that may stand at an end of an escaped argument. -/
def IsEdge (u : UInt16) : Prop :=
  isPlainUnit u = true ∨ u = QUOTE

theorem IsEdge.not_blank (h : IsEdge u) : isWhiteSpace u = false := by
  rcases h with h | rfl
  · exact plain_not_blank h
  · decide

theorem Escaped.first (h : Escaped value escaped) : ∃ u rest, escaped = u :: rest ∧ IsEdge u := by
  cases h with
  | plain hne hplain =>
    obtain ⟨u, rest, rfl⟩ := exists_cons_of_ne_nil hne
    exact ⟨u, rest, rfl, .inl (hplain u mem_cons_self)⟩
  | quoted hsafe => exact ⟨QUOTE, doubleQuotes value ++ [QUOTE], rfl, .inr rfl⟩

theorem Escaped.last (h : Escaped value escaped) : ∃ front u, escaped = front ++ [u] ∧ IsEdge u := by
  cases h with
  | plain hne hplain =>
    refine ⟨value.dropLast, value.getLast hne, (dropLast_append_getLast hne).symm, .inl ?_⟩
    exact hplain _ (getLast_mem hne)
  | quoted hsafe => exact ⟨QUOTE :: doubleQuotes value, QUOTE, rfl, .inr rfl⟩

theorem rendered_first (h : List.Forall₂ Escaped argv parts) (hne : argv ≠ []) :
    ∃ u rest, joinSpaced parts = u :: rest ∧ IsEdge u := by
  cases h with
  | nil => exact absurd rfl hne
  | @cons value part argv parts hpart hparts =>
    obtain ⟨u, rest, rfl, hu⟩ := hpart.first
    cases hparts with
    | nil => exact ⟨u, rest, rfl, hu⟩
    | cons hnext hparts => exact ⟨u, _, rfl, hu⟩

theorem rendered_last (h : List.Forall₂ Escaped argv parts) (hne : argv ≠ []) :
    ∃ front u, joinSpaced parts = front ++ [u] ∧ IsEdge u := by
  induction h with
  | nil => exact absurd rfl hne
  | @cons value part argv parts hpart hparts ih =>
    cases hparts with
    | nil => exact hpart.last
    | @cons next nextPart argv parts hnext hparts =>
      obtain ⟨front, u, hrest, hu⟩ := ih (cons_ne_nil _ _)
      refine ⟨part ++ SPACE :: front, u, ?_, hu⟩
      rw [joinSpaced, hrest, append_assoc]
      rfl

theorem trim_of_ends {s : JsString} (hfirst : s = u :: rest)
    (hu : isWhiteSpace u = false) {front : JsString} {v : UInt16} (hlast : s = front ++ [v])
    (hv : isWhiteSpace v = false) : trim s = s := by
  have hleft : s.dropWhile isWhiteSpace = s := by
    rw [hfirst, dropWhile_cons_of_neg (by rw [hu]; exact Bool.false_ne_true)]
  rw [trim, hleft, hlast, rdropWhile_concat_neg _ _ _ (by rw [hv]; exact Bool.false_ne_true)]

theorem trim_rendered (h : List.Forall₂ Escaped argv parts) (hne : argv ≠ []) :
    trim (joinSpaced parts) = joinSpaced parts := by
  obtain ⟨u, rest, hfirst, hu⟩ := rendered_first h hne
  obtain ⟨front, v, hlast, hv⟩ := rendered_last h hne
  exact trim_of_ends hfirst hu.not_blank hlast hv.not_blank

theorem trim_rebuilt (h : List.Forall₂ Escaped argv parts) (hne : argv ≠ []) :
    trim (js "& " ++ joinSpaced parts) = js "& " ++ joinSpaced parts := by
  obtain ⟨front, v, hlast, hv⟩ := rendered_last h hne
  have hlast : js "& " ++ joinSpaced parts = (js "& " ++ front) ++ [v] := by
    rw [hlast, append_assoc]
  exact trim_of_ends (by rfl) (by decide : isWhiteSpace 38 = false) hlast hv.not_blank

theorem call_operator (hu : IsEdge u) : seq (keyword "&") spaces (js "& " ++ u :: rest) = [u :: rest] := by
  have hstar : star (unit isWhiteSpace) (u :: rest) = [u :: rest] := star_of_none (unit_of_not hu.not_blank rest)
  have hblank : unit isWhiteSpace (SPACE :: u :: rest) = [u :: rest] := rfl
  show ([SPACE :: u :: rest].flatMap spaces) = [u :: rest]
  rw [flatMap_singleton, spaces, plus, seq, hblank, flatMap_singleton, hstar]

theorem no_call_operator (hu : IsEdge u) : seq (keyword "&") spaces (u :: rest) = [] := by
  have hne : sameLetter 38 u = false := by
    have hmarks : ∀ v : UInt16, asciiLower v = 38 → v = 38 := by
      intro v hv
      unfold asciiLower at hv
      split at hv
      · rename_i hletter
        rw [UInt16.le_iff_toNat_le, UInt16.le_iff_toNat_le] at hletter
        have hsum := congrArg UInt16.toNat hv
        rw [UInt16.toNat_add] at hsum
        simp at hsum hletter
        omega
      · exact hv
    rw [sameLetter, beq_eq_false_iff_ne]
    intro hsame
    obtain rfl := hmarks u hsame.symm
    rcases hu with hu | hu
    · exact absurd hu (by decide)
    · exact absurd hu (by decide)
  have hunit : keyword "&" (u :: rest) = [] := by
    show (unit (sameLetter 38) (u :: rest)).flatMap _ = []
    rw [unit_of_not hne, flatMap_nil]
  exact seq_of_none spaces hunit

section

variable (h : List.Forall₂ Escaped argv parts)

include h

theorem strip_call_operator (hne : argv ≠ []) :
    stripWindowsShellWrapperOnce (js "& " ++ joinSpaced parts) = joinSpaced parts := by
  obtain ⟨u, rest, hfirst, hu⟩ := rendered_first h hne
  rw [stripWindowsShellWrapperOnce, hfirst, call_operator hu, find?_cons_of_pos (by simp)]

theorem strip_not_invocation (hne : argv ≠ []) (hnot : psInvocation (joinSpaced parts) = []) :
    stripWindowsShellWrapperOnce (joinSpaced parts) = joinSpaced parts := by
  obtain ⟨u, rest, hfirst, hu⟩ := rendered_first h hne
  rw [stripWindowsShellWrapperOnce, hnot, hfirst, no_call_operator hu]
  rfl

theorem strip_rebuilt (hne : argv ≠ []) :
    stripWindowsShellWrapper (js "& " ++ joinSpaced parts) = stripRounds 4 (joinSpaced parts) := by
  have hchanged : joinSpaced parts ≠ js "& " ++ joinSpaced parts := by
    intro heq
    have hlength := congrArg length heq
    have hoperator : (js "& ").length = 2 := by decide
    rw [length_append, hoperator] at hlength
    omega
  rw [stripWindowsShellWrapper, stripRounds, trim_rebuilt h hne, strip_call_operator h hne]
  exact if_neg hchanged

theorem stripRounds_not_invocation (hne : argv ≠ [])
    (hnot : psInvocation (joinSpaced parts) = []) : stripRounds 4 (joinSpaced parts) = joinSpaced parts := by
  rw [stripRounds, trim_rendered h hne, strip_not_invocation h hne hnot]
  exact if_pos rfl

end

def POWERSHELL_NAMES : List JsString :=
  [js "powershell", js "pwsh", js "powershell.exe", js "pwsh.exe"]

/-! ## The main result -/

def InvokesPowerShell (argv : List JsString) : Prop :=
  psInvocation (joinSpaced (argv.filterMap windowsEscapeArg)) ≠ []

instance (argv : List JsString) : Decidable (InvokesPowerShell argv) :=
  inferInstanceAs (Decidable (_ ≠ []))

/-- The command such an invocation is taken for; a round is gone for the call operator. -/
def invokedCommand (argv : List JsString) : JsString :=
  stripRounds 4 (joinSpaced (argv.filterMap windowsEscapeArg))

/-- The tokens behind the call operator are the vector, and an analysis finds nothing unsupported. -/
def KeepsArgv (rebuilt : JsString) (argv : List JsString) : Prop :=
  tokenizeWindowsSegment (rebuilt.drop 2) = some argv ∧ ∀ token, analyzeWindowsShellCommand rebuilt ≠ .unsupported token

theorem escaped_of_rendered {argv : List JsString} {rendered : JsString}
    (h : renderWindowsQuotedArgv argv = .ok rendered) :
    List.Forall₂ Escaped argv (argv.filterMap windowsEscapeArg) ∧
      rendered = joinSpaced (argv.filterMap windowsEscapeArg) := by
  unfold renderWindowsQuotedArgv at h
  split at h
  · cases h
  rename_i hall
  refine ⟨?_, (Except.ok.inj h).symm⟩
  clear h
  induction argv with
  | nil => exact List.Forall₂.nil
  | cons value argv ih =>
    rw [find?_cons] at hall
    split at hall
    · cases hall
    rename_i hvalue
    obtain ⟨escaped, hescaped⟩ := Option.ne_none_iff_exists'.mp (of_decide_eq_false hvalue)
    rw [filterMap_cons_some hescaped]
    exact List.Forall₂.cons (escaped_of_windowsEscapeArg hescaped) (ih hall)

variable {segment : ExecCommandSegment} {planned : List JsString}

theorem rebuilt_eq {command platform rebuilt : JsString} (hplanned : resolvePlannedSegmentArgv segment = some planned)
    (hbuilt : buildEnforcedShellCommand command [segment] platform = .ok rebuilt) :
    List.Forall₂ Escaped planned (planned.filterMap windowsEscapeArg) ∧
      rebuilt = js "& " ++ joinSpaced (planned.filterMap windowsEscapeArg) := by
  unfold buildEnforcedShellCommand at hbuilt
  split at hbuilt
  · cases hbuilt
  unfold rebuildWindowsShellCommandFromSource at hbuilt
  simp only [getElem?_cons_zero, hplanned] at hbuilt
  split at hbuilt
  · cases hbuilt
  rename_i command' segmentCount hresult
  split at hresult
  · cases hresult
  split at hresult
  · cases hresult
  cases hrendered : renderWindowsQuotedArgv planned with
  | error reason =>
    rw [hrendered] at hresult
    cases hresult
  | ok rendered =>
    rw [hrendered] at hresult
    obtain ⟨rfl, rfl⟩ := Prod.mk.inj (Except.ok.inj hresult)
    obtain ⟨hparts, rfl⟩ := escaped_of_rendered hrendered
    exact ⟨hparts, (Except.ok.inj hbuilt).symm⟩

theorem planned_ne_nil (h : resolvePlannedSegmentArgv segment = some planned) : planned ≠ [] := by
  unfold resolvePlannedSegmentArgv at h
  split at h
  · cases h
  simp only at h
  split at h
  · cases h
  · rw [← Option.some.inj h]
    exact cons_ne_nil _ _

theorem analyze_supported_iff (command : JsString) :
    (∀ token, analyzeWindowsShellCommand command ≠ .unsupported token) ↔
      findWindowsUnsupportedToken (stripWindowsShellWrapper (trim command)) = none := by
  unfold analyzeWindowsShellCommand
  cases hfind : findWindowsUnsupportedToken (stripWindowsShellWrapper (trim command)) with
  | none =>
    refine ⟨fun _ => rfl, fun _ token => ?_⟩
    simp only [hfind]
    cases tokenizeWindowsSegment (stripWindowsShellWrapper (trim command)) with
    | none | some argv => exact Analysis.noConfusion
  | some found =>
    simp only [hfind]
    exact ⟨fun h => absurd rfl (h found), fun h => absurd h (Option.some_ne_none found)⟩

theorem map_withoutQuotes_eq_self_iff {argv : List JsString} :
    argv.map withoutQuotes = argv ↔ ∀ value ∈ argv, QUOTE ∉ value := by
  induction argv with
  | nil => exact ⟨fun _ value hvalue => absurd hvalue not_mem_nil, fun _ => rfl⟩
  | cons value argv ih =>
    rw [map_cons, cons.injEq, withoutQuotes_eq_self_iff, ih, forall_mem_cons]

/-- A rebuilt command keeps its planned vector exactly where no argument has a double quote, and no argument has a
line break; a vector that reads as an invocation of PowerShell is judged by the command it invokes. -/
theorem rebuilt_keeps_argv_iff {command platform rebuilt : JsString} {segment : ExecCommandSegment}
    {planned : List JsString} (hplanned : resolvePlannedSegmentArgv segment = some planned)
    (hbuilt : buildEnforcedShellCommand command [segment] platform = .ok rebuilt) :
    KeepsArgv rebuilt planned ↔
      (∀ value ∈ planned, QUOTE ∉ value) ∧
      (¬InvokesPowerShell planned → ∀ value ∈ planned, ¬HasLineBreak value) ∧
      (InvokesPowerShell planned → findWindowsUnsupportedToken (invokedCommand planned) = none) := by
  obtain ⟨hparts, rfl⟩ := rebuilt_eq hplanned hbuilt
  have hne := planned_ne_nil hplanned
  have htokens : tokenizeWindowsSegment ((js "& " ++ joinSpaced (planned.filterMap windowsEscapeArg)).drop 2) =
      some planned ↔ ∀ value ∈ planned, QUOTE ∉ value := by
    have hdrop : (js "& " ++ joinSpaced (planned.filterMap windowsEscapeArg)).drop 2 =
        joinSpaced (planned.filterMap windowsEscapeArg) := rfl
    rw [hdrop, tokenize_rendered hparts hne, Option.some.injEq, map_withoutQuotes_eq_self_iff]
  unfold KeepsArgv
  rw [htokens, analyze_supported_iff, trim_rebuilt hparts hne, strip_rebuilt hparts hne]
  by_cases hinvokes : InvokesPowerShell planned
  · exact and_congr_right fun _ =>
      ⟨fun h => ⟨fun hnot => absurd hinvokes hnot, fun _ => h⟩, fun h => h.2 hinvokes⟩
  · have hnot : psInvocation (joinSpaced (planned.filterMap windowsEscapeArg)) = [] := not_not.mp hinvokes
    rw [stripRounds_not_invocation hparts hne hnot, findUnsupported_rendered hparts]
    exact and_congr_right fun _ => ⟨fun h => ⟨fun _ => h, fun hin => absurd hin hinvokes⟩, fun h => h.1 hinvokes⟩

section Fixed

/-- A segment whose tokens are run as they are. -/
def plainSegment (argv : List JsString) : ExecCommandSegment :=
  { argv := argv, policyBlocked := false, effectiveArgv := none, resolvedRealPath := none, resolvedPath := none }

theorem blank_argument_kept :
    KeepsArgv (js "& echo \"a b\"") [js "echo", js "a b"] := by
  have hplanned : resolvePlannedSegmentArgv (plainSegment [js "echo", js "a b"]) = some [js "echo", js "a b"] := by
    decide
  have hbuilt : buildEnforcedShellCommand (js "echo 'a b'") [plainSegment [js "echo", js "a b"]] (js "win32") =
      .ok (js "& echo \"a b\"") := by
    decide +kernel
  refine (rebuilt_keeps_argv_iff hplanned hbuilt).mpr ⟨by decide, fun _ => ?_, fun h => ?_⟩
  · unfold HasLineBreak
    decide
  · exact absurd h (by decide +kernel)

theorem quote_in_argument_lost :
    analyzeWindowsShellCommand (js "echo 'a\"b'") = .ok [js "echo", js "a\"b"] ∧
    resolvePlannedSegmentArgv (plainSegment [js "echo", js "a\"b"]) = some [js "echo", js "a\"b"] ∧
    buildEnforcedShellCommand (js "echo 'a\"b'") [plainSegment [js "echo", js "a\"b"]] (js "win32") =
      .ok (js "& echo \"a\"\"b\"") ∧
    ¬KeepsArgv (js "& echo \"a\"\"b\"") [js "echo", js "a\"b"] := by
  refine ⟨by decide +kernel, by decide, by decide +kernel, fun h => absurd h.1 (by decide +kernel)⟩

end Fixed

end ClawWorks.WindowsShell
