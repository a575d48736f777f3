import Mathlib.Data.List.Basic
import Mathlib.Data.List.DropRight

/-!
# Glob patterns

Patterns over an arbitrary alphabet: literal symbols, and stars that stand for any run of the symbols a star may pass.

- `test_append_iff`, `test_star_iff`, `test_literals_iff`: the language of a pattern, piece by piece;
- `test_ofList_self`: a text read as a pattern matches itself;
- `takeWhile_prefix_of_test`, `rtakeWhile_suffix_of_test`: what a pattern says before its first star and behind its last
  one opens and closes every text it matches;
- `filter_of_test`, `exists_test_iff`: the symbols no star passes stand in a text as in the pattern, and which openings
  some matched text has.
-/

/-- One piece of a pattern. -/
inductive GlobToken (α : Type*)
  | lit (a : α)
  | star

/-- A pattern. -/
abbrev Glob (α : Type*) := List (GlobToken α)

namespace Glob

open List

variable {α : Type*}

/-- The pattern a text spells, with `wild` for the star. -/
def ofList [DecidableEq α] (wild : α) (text : List α) : Glob α :=
  text.map fun a => if a = wild then .star else .lit a

def literals (text : List α) : Glob α :=
  text.map .lit

/-- A star followed by whatever `rest` accepts. -/
def testStar (free : α → Bool) (rest : List α → Bool) : List α → Bool
  | [] => rest []
  | a :: text => rest (a :: text) || (free a && testStar free rest text)

/-- Whether a pattern matches a whole text. -/
def test [DecidableEq α] (free : α → Bool) : Glob α → List α → Bool
  | [], text => text.isEmpty
  | .lit _ :: _, [] => false
  | .lit a :: pattern, b :: text => a = b && test free pattern text
  | .star :: pattern, text => testStar free (test free pattern) text

variable {text : List α}

theorem testStar_iff {free : α → Bool} {rest : List α → Bool} : testStar free rest text ↔
      ∃ run tail, text = run ++ tail ∧ (∀ a ∈ run, free a) ∧ rest tail := by
  induction text with
  | nil =>
    constructor
    · exact fun h => ⟨[], [], rfl, by simp, h⟩
    · rintro ⟨run, tail, htext, -, h⟩
      obtain ⟨rfl, rfl⟩ := append_eq_nil_iff.mp htext.symm
      exact h
  | cons a text ih =>
    rw [testStar, Bool.or_eq_true, Bool.and_eq_true, ih]
    constructor
    · rintro (h | ⟨hfree, run, tail, rfl, hrun, h⟩)
      · exact ⟨[], a :: text, rfl, by simp, h⟩
      · exact ⟨a :: run, tail, rfl, by simpa [hfree] using hrun, h⟩
    · rintro ⟨run, tail, htext, hrun, h⟩
      cases run with
      | nil =>
        rw [nil_append] at htext
        exact Or.inl (htext ▸ h)
      | cons b run =>
        obtain ⟨rfl, rfl⟩ := cons.inj htext
        exact Or.inr ⟨hrun a mem_cons_self, run, tail, rfl, fun c hc => hrun c (mem_cons_of_mem a hc), h⟩

variable [DecidableEq α] {free : α → Bool}

@[simp] theorem test_nil_iff : test free [] text ↔ text = [] := by
  simp [test]

theorem test_lit_iff {a : α} {pattern : Glob α} :
    test free (.lit a :: pattern) text ↔ ∃ rest, text = a :: rest ∧ test free pattern rest := by
  cases text with
  | nil => simp [test]
  | cons b text =>
    rw [test, Bool.and_eq_true, decide_eq_true_eq]
    constructor
    · rintro ⟨rfl, h⟩
      exact ⟨text, rfl, h⟩
    · rintro ⟨rest, hrest, h⟩
      obtain ⟨rfl, rfl⟩ := cons.inj hrest
      exact ⟨rfl, h⟩

theorem test_star_iff {pattern : Glob α} : test free (.star :: pattern) text ↔
      ∃ run tail, text = run ++ tail ∧ (∀ a ∈ run, free a) ∧ test free pattern tail := by
  cases text <;> exact testStar_iff

theorem test_append_iff {p q : Glob α} : test free (p ++ q) text ↔
      ∃ head tail, text = head ++ tail ∧ test free p head ∧ test free q tail := by
  induction p generalizing text with
  | nil => simp
  | cons token p ih =>
    cases token with
    | lit a =>
      rw [cons_append, test_lit_iff]
      constructor
      · rintro ⟨rest, rfl, h⟩
        obtain ⟨head, tail, rfl, hp, hq⟩ := ih.mp h
        exact ⟨a :: head, tail, rfl, test_lit_iff.mpr ⟨head, rfl, hp⟩, hq⟩
      · rintro ⟨head, tail, rfl, hp, hq⟩
        obtain ⟨rest, rfl, hrest⟩ := test_lit_iff.mp hp
        exact ⟨rest ++ tail, rfl, ih.mpr ⟨rest, tail, rfl, hrest, hq⟩⟩
    | star =>
      rw [cons_append, test_star_iff]
      constructor
      · rintro ⟨run, rest, rfl, hrun, h⟩
        obtain ⟨head, tail, rfl, hp, hq⟩ := ih.mp h
        exact ⟨run ++ head, tail, by rw [append_assoc], test_star_iff.mpr ⟨run, head, rfl, hrun, hp⟩, hq⟩
      · rintro ⟨head, tail, rfl, hp, hq⟩
        obtain ⟨run, rest, rfl, hrun, hrest⟩ := test_star_iff.mp hp
        exact ⟨run, rest ++ tail, by rw [append_assoc], hrun, ih.mpr ⟨rest, tail, rfl, hrest, hq⟩⟩

theorem test_literals_iff {literal text : List α} : test free (literals literal) text ↔ text = literal := by
  induction literal generalizing text with
  | nil => exact test_nil_iff
  | cons a literal ih =>
    refine test_lit_iff.trans ⟨?_, ?_⟩
    · rintro ⟨rest, rfl, h⟩
      rw [ih.mp h]
    · rintro rfl
      exact ⟨literal, rfl, ih.mpr rfl⟩

variable {wild : α}

theorem test_ofList_self (hwild : free wild) (text : List α) : test free (ofList wild text) text := by
  induction text with
  | nil => rfl
  | cons a text ih =>
    by_cases ha : a = wild
    · have hpattern : ofList wild (a :: text) = .star :: ofList wild text := by simp [ofList, ha]
      rw [hpattern, test_star_iff]
      exact ⟨[a], text, rfl, by simpa [ha] using hwild, ih⟩
    · have hpattern : ofList wild (a :: text) = .lit a :: ofList wild text := by simp [ofList, ha]
      rw [hpattern, test_lit_iff]
      exact ⟨text, rfl, ih⟩

theorem ofList_append (wild : α) (p q : List α) : ofList wild (p ++ q) = ofList wild p ++ ofList wild q := map_append

theorem ofList_of_not_mem (h : wild ∉ text) : ofList wild text = literals text :=
  map_congr_left fun a ha => if_neg fun (heq : a = wild) => h (heq ▸ ha)

theorem takeWhile_prefix_of_test {pattern text : List α} (h : test free (ofList wild pattern) text) :
    pattern.takeWhile (· ≠ wild) <+: text := by
  rw [← takeWhile_append_dropWhile (p := (· ≠ wild)) (l := pattern), ofList_append, test_append_iff] at h
  obtain ⟨head, tail, rfl, hhead, -⟩ := h
  have hliteral : wild ∉ pattern.takeWhile (· ≠ wild) := fun hmem => by simpa using mem_takeWhile_imp hmem
  rw [ofList_of_not_mem hliteral, test_literals_iff] at hhead
  exact ⟨tail, by rw [hhead]⟩

theorem rtakeWhile_suffix_of_test {pattern text : List α} (h : test free (ofList wild pattern) text) :
    pattern.rtakeWhile (· ≠ wild) <:+ text := by
  rw [← rdropWhile_append_rtakeWhile (p := (· ≠ wild)) (l := pattern), ofList_append, test_append_iff] at h
  obtain ⟨head, tail, rfl, -, htail⟩ := h
  have hliteral : wild ∉ pattern.rtakeWhile (· ≠ wild) := fun hmem => by simpa using mem_rtakeWhile_imp hmem
  rw [ofList_of_not_mem hliteral, test_literals_iff] at htail
  exact ⟨head, by rw [htail]⟩

/-! ## Openings of matched texts -/

/-- A pattern and an opening agree as far as both are literal. -/
def Meets (wild : α) (pattern opening : List α) : Prop :=
  (wild ∈ pattern ∧ pattern.takeWhile (· ≠ wild) <+: opening) ∨ opening <+: pattern.takeWhile (· ≠ wild)

theorem takeWhile_of_not_mem {pattern : List α} (h : wild ∉ pattern) : pattern.takeWhile (· ≠ wild) = pattern := by
  rw [takeWhile_eq_self_iff]
  intro a ha
  simpa using fun (heq : a = wild) => h (heq ▸ ha)

theorem test_filter (wild : α) (pattern : List α) : test free (ofList wild pattern) (pattern.filter (· ≠ wild)) := by
  induction pattern with
  | nil => rfl
  | cons a pattern ih =>
    by_cases ha : a = wild
    · have hpattern : ofList wild (a :: pattern) = .star :: ofList wild pattern := by simp [ofList, ha]
      rw [hpattern, filter_cons_of_neg (by simp [ha]), test_star_iff]
      exact ⟨[], _, rfl, by simp, ih⟩
    · have hpattern : ofList wild (a :: pattern) = .lit a :: ofList wild pattern := by simp [ofList, ha]
      rw [hpattern, filter_cons_of_pos (by simp [ha]), test_lit_iff]
      exact ⟨_, rfl, ih⟩

variable {pattern opening : List α}

theorem exists_test_of_prefix (h : opening <+: pattern.takeWhile (· ≠ wild)) :
    ∃ tail, test free (ofList wild pattern) (opening ++ tail) := by
  have hhead : pattern.takeWhile (· ≠ wild) <+: pattern.filter (· ≠ wild) := by
    have hkept : (pattern.takeWhile (· ≠ wild)).filter (· ≠ wild) = pattern.takeWhile (· ≠ wild) :=
      filter_eq_self.mpr fun a ha => by simpa using mem_takeWhile_imp ha
    have hsplit := congrArg (filter (· ≠ wild)) (takeWhile_append_dropWhile (p := (· ≠ wild)) (l := pattern))
    rw [filter_append, hkept] at hsplit
    exact ⟨_, hsplit⟩
  obtain ⟨tail, htail⟩ := h.trans hhead
  exact ⟨tail, htail ▸ test_filter wild pattern⟩

theorem exists_test_of_meets (h : Meets wild pattern opening) (hopening : ∀ a ∈ opening, free a) :
    ∃ tail, test free (ofList wild pattern) (opening ++ tail) := by
  rcases h with ⟨hmem, left, rfl⟩ | hprefix
  · obtain ⟨rest, hrest⟩ : ∃ rest, pattern.dropWhile (· ≠ wild) = wild :: rest := by
      cases hdrop : pattern.dropWhile (· ≠ wild) with
      | nil => exact absurd (dropWhile_eq_nil_iff.mp hdrop wild hmem) (by simp)
      | cons a rest =>
        have ha := head?_dropWhile_not (· ≠ wild) pattern
        rw [hdrop] at ha
        exact ⟨rest, by rw [show a = wild by simpa using ha]⟩
    have hpattern : pattern = pattern.takeWhile (· ≠ wild) ++ wild :: rest := by
      rw [← hrest, takeWhile_append_dropWhile]
    have hliteral : wild ∉ pattern.takeWhile (· ≠ wild) := fun hin => by simpa using mem_takeWhile_imp hin
    have hstar : ofList wild (wild :: rest) = .star :: ofList wild rest := by simp [ofList]
    refine ⟨rest.filter (· ≠ wild), ?_⟩
    rw [hpattern, ofList_append, ofList_of_not_mem hliteral, test_append_iff, ← hpattern]
    refine ⟨_, left ++ rest.filter (· ≠ wild), by simp, test_literals_iff.mpr rfl, ?_⟩
    rw [hstar, test_star_iff]
    exact ⟨left, _, rfl, fun a ha => hopening a (mem_append_right _ ha), test_filter wild rest⟩
  · exact exists_test_of_prefix hprefix

theorem meets_of_test {pattern opening tail : List α}
    (h : test free (ofList wild pattern) (opening ++ tail)) : Meets wild pattern opening := by
  by_cases hmem : wild ∈ pattern
  · have hhead := takeWhile_prefix_of_test h
    exact ( prefix_or_prefix_of_prefix hhead (prefix_append opening tail)).imp (⟨hmem, ·⟩) id
  · rw [ofList_of_not_mem hmem, test_literals_iff] at h
    refine Or.inr ?_
    rw [takeWhile_of_not_mem hmem]
    exact ⟨tail, h⟩

theorem filter_of_test (hwild : free wild) {pattern text : List α} (h : test free (ofList wild pattern) text) :
    text.filter (fun a => !free a) = pattern.filter (fun a => !free a) := by
  induction pattern generalizing text with
  | nil => rw [test_nil_iff.mp h]
  | cons a pattern ih =>
    by_cases ha : a = wild
    · have hpattern : ofList wild (a :: pattern) = .star :: ofList wild pattern := by simp [ofList, ha]
      rw [hpattern, test_star_iff] at h
      obtain ⟨run, tail, rfl, hrun, htail⟩ := h
      have hnone : run.filter (fun a => !free a) = [] := filter_eq_nil_iff.mpr (by simpa using hrun)
      rw [filter_append, hnone, nil_append, ih htail, filter_cons_of_neg (by simp [ha, hwild])]
    · have hpattern : ofList wild (a :: pattern) = .lit a :: ofList wild pattern := by simp [ofList, ha]
      rw [hpattern, test_lit_iff] at h
      obtain ⟨rest, rfl, hrest⟩ := h
      rw [filter_cons, filter_cons, ih hrest]

theorem split_of_test {wild b : α} (hb : free b = false) {pattern before after : List α}
    (h : test free (ofList wild pattern) (before ++ b :: after)) :
    ∃ p q, pattern = p ++ q ∧ test free (ofList wild p) (before ++ [b]) ∧ test free (ofList wild q) after := by
  induction pattern generalizing before with
  | nil => exact absurd (test_nil_iff.mp h) (by simp)
  | cons a pattern ih =>
    by_cases ha : a = wild
    · have hstar : ∀ p, ofList wild (a :: p) = .star :: ofList wild p := fun p => by simp [ofList, ha]
      rw [hstar, test_star_iff] at h
      obtain ⟨run, tail, htext, hrun, htail⟩ := h
      -- the star stops in front of the symbol
      obtain ⟨rest, rfl, rfl⟩ : ∃ rest, before = run ++ rest ∧ tail = rest ++ b :: after := by
        rcases append_eq_append_iff.mp htext.symm with ⟨rest, hbefore, htail'⟩ | ⟨more, hrun', hmore⟩
        · exact ⟨rest, hbefore, htail'⟩
        · cases more with
          | nil => exact ⟨[], by simpa using hrun'.symm, by simpa using hmore.symm⟩
          | cons c more =>
            obtain ⟨rfl, -⟩ := cons.inj hmore
            have hpassed := hrun b (by rw [hrun']; exact mem_append_right _ mem_cons_self)
            rw [hb] at hpassed
            cases hpassed
      obtain ⟨p, q, rfl, hp, hq⟩ := ih htail
      refine ⟨a :: p, q, rfl, ?_, hq⟩
      rw [hstar, test_star_iff]
      exact ⟨run, rest ++ [b], by simp, hrun, hp⟩
    · have hlit : ∀ p, ofList wild (a :: p) = .lit a :: ofList wild p := fun p => by simp [ofList, ha]
      rw [hlit, test_lit_iff] at h
      obtain ⟨rest, htext, hrest⟩ := h
      cases before with
      | nil =>
        obtain ⟨rfl, rfl⟩ := cons.inj htext
        refine ⟨[b], pattern, rfl, ?_, hrest⟩
        rw [hlit, test_lit_iff]
        exact ⟨[], rfl, rfl⟩
      | cons c before =>
        obtain ⟨rfl, rfl⟩ := cons.inj htext
        obtain ⟨p, q, rfl, hp, hq⟩ := ih hrest
        refine ⟨c :: p, q, rfl, ?_, hq⟩
        rw [hlit, test_lit_iff]
        exact ⟨before ++ [b], rfl, hp⟩

/-- **Which openings a matched text has**: one part of the pattern matches them up to the last symbol that no star
passes, and the other part meets what follows it. -/
theorem exists_test_iff : (∃ tail, test free (ofList wild pattern) (opening ++ tail)) ↔
      ∃ p q, pattern = p ++ q ∧ test free (ofList wild p) (opening.rdropWhile free) ∧
        Meets wild q (opening.rtakeWhile free) := by
  have hopening := rdropWhile_append_rtakeWhile (p := free) (l := opening)
  constructor
  · rintro ⟨tail, h⟩
    rw [← hopening, append_assoc] at h
    rcases eq_nil_or_concat (opening.rdropWhile free) with hnil | ⟨before, b, hbefore⟩
    · rw [hnil, nil_append] at h
      exact ⟨[], pattern, rfl, by rw [hnil]; rfl, meets_of_test h⟩
    · have hb : free b = false := by
        have hlast := rdropWhile_last_not free opening (by simp [hbefore])
        simpa [hbefore] using hlast
      rw [concat_eq_append] at hbefore
      rw [hbefore, append_assoc] at h
      obtain ⟨p, q, rfl, hp, hq⟩ := split_of_test hb h
      exact ⟨p, q, rfl, by rw [hbefore]; exact hp, meets_of_test hq⟩
  · rintro ⟨p, q, rfl, hp, hmeets⟩
    have hfree : ∀ a ∈ opening.rtakeWhile free, free a := fun a ha => mem_rtakeWhile_imp ha
    obtain ⟨tail, hq⟩ := exists_test_of_meets hmeets hfree
    refine ⟨tail, ?_⟩
    rw [ofList_append, test_append_iff, ← hopening, append_assoc]
    exact ⟨_, _, rfl, hp, hq⟩

end Glob
