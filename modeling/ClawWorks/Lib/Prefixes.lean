import Mathlib.Data.List.Basic
import Mathlib.Data.List.TakeWhile

/-!
# Tests of unfinished texts

A text that arrives piece by piece is tested before it is complete. Such a test holds of a text when the text can still
become what is looked for, so it holds of every prefix of what it holds of.
-/

namespace Unfinished

open List

variable {α : Type*}

/-- What holds of a text holds of every prefix of it that is not empty. -/
def PrefixClosed (test : List α → Bool) : Prop :=
  ∀ ⦃s t : List α⦄, s ≠ [] → s <+: t → test t = true → test s = true

variable {s t : List α} {next other : List α → Bool} {p : α → Bool}

theorem PrefixClosed.or (hnext : PrefixClosed next) (hother : PrefixClosed other) :
    PrefixClosed fun s => next s || other s := by
  intro s t hne hst ht
  rcases Bool.or_eq_true_iff.mp ht with ht | ht
  · exact Bool.or_eq_true_iff.mpr (.inl (hnext hne hst ht))
  · exact Bool.or_eq_true_iff.mpr (.inr (hother hne hst ht))

theorem PrefixClosed.and_const {b : Bool} (hnext : PrefixClosed next) : PrefixClosed fun s => b && next s := by
  intro s t hne hst ht
  obtain ⟨hb, ht⟩ := Bool.and_eq_true_iff.mp ht
  exact Bool.and_eq_true_iff.mpr ⟨hb, hnext hne hst ht⟩

/-! ## Runs of items -/

/-- Items to skip, and then what passes a test. -/
def skipping (skip : α → Bool) (next : List α → Bool) (text : List α) : Bool :=
  (text.dropWhile skip).isEmpty || next (text.dropWhile skip)

/-- A run of items that make a name, and then what passes a test. -/
def naming (isName : α → Bool) (hasPrefix : List α → Bool) (next : List α → List α → Bool) (text : List α) : Bool :=
  !(text.takeWhile isName).isEmpty && hasPrefix (text.takeWhile isName) &&
    ((text.dropWhile isName).isEmpty || next (text.takeWhile isName) (text.dropWhile isName))

theorem dropWhile_of_isPrefix (h : s <+: t) :
    s.dropWhile p = [] ∨ (s.takeWhile p = t.takeWhile p ∧ s.dropWhile p <+: t.dropWhile p) := by
  induction s generalizing t with
  | nil => exact .inl rfl
  | cons a s ih =>
    obtain ⟨t, rfl, hst⟩ := cons_prefix_iff.mp h
    by_cases ha : p a
    · simp only [dropWhile_cons_of_pos ha, takeWhile_cons_of_pos ha, cons.injEq, true_and]
      exact ih hst
    · refine .inr ?_
      simp only [dropWhile_cons_of_neg ha, takeWhile_cons_of_neg ha, true_and]
      exact h

theorem takeWhile_of_isPrefix (h : s <+: t) : s.takeWhile p <+: t.takeWhile p := by
  induction s generalizing t with
  | nil => exact nil_prefix
  | cons a s ih =>
    obtain ⟨t, rfl, hst⟩ := cons_prefix_iff.mp h
    by_cases ha : p a
    · simp only [takeWhile_cons_of_pos ha]
      exact cons_prefix_cons.mpr ⟨rfl, ih hst⟩
    · simp only [takeWhile_cons_of_neg ha]
      exact nil_prefix

theorem dropWhile_isPrefix (h : s <+: t) (hs : s.dropWhile p ≠ []) :
    s.takeWhile p = t.takeWhile p ∧ s.dropWhile p <+: t.dropWhile p :=
  (dropWhile_of_isPrefix h).resolve_left hs

theorem PrefixClosed.skipping (hnext : PrefixClosed next) : PrefixClosed (skipping p next) := by
  intro s t _ h ht
  unfold Unfinished.skipping at ht ⊢
  by_cases hs : s.dropWhile p = []
  · simp [hs]
  · obtain ⟨-, hrest⟩ := dropWhile_isPrefix h hs
    have hne : t.dropWhile p ≠ [] := fun hnil => hs (prefix_nil.mp (hnil ▸ hrest))
    have hnextT : next (t.dropWhile p) := by simpa [hne] using ht
    rw [hnext hs hrest hnextT, Bool.or_true]

theorem PrefixClosed.naming {hasPrefix : List α → Bool} {next : List α → List α → Bool}
    (hbegins : ∀ ⦃a b : List α⦄, a <+: b → hasPrefix b → hasPrefix a)
    (hnext : ∀ name, PrefixClosed (next name)) : PrefixClosed (naming p hasPrefix next) := by
  intro s t hne h ht
  unfold Unfinished.naming at ht ⊢
  simp only [Bool.and_eq_true, Bool.not_eq_true', List.isEmpty_eq_false_iff, Bool.or_eq_true, List.isEmpty_iff] at ht ⊢
  obtain ⟨⟨hname, hpart⟩, hrest⟩ := ht
  by_cases hs : s.dropWhile p = []
  · have hall : s.takeWhile p = s := by
      have happend := s.takeWhile_append_dropWhile (p := p)
      rwa [hs, List.append_nil] at happend
    exact ⟨⟨by rwa [hall], hbegins (takeWhile_of_isPrefix h) hpart⟩, .inl hs⟩
  · obtain ⟨hsame, hdrop⟩ := dropWhile_isPrefix h hs
    have hneT : t.dropWhile p ≠ [] := fun hnil => hs (List.prefix_nil.mp (hnil ▸ hdrop))
    rw [hsame]
    exact ⟨⟨hname, hpart⟩, .inr (hnext _ hs hdrop (hrest.resolve_left hneT))⟩

/-! ## Literals -/

section Literals

variable [DecidableEq α]

def matchesLiteral (text literal : List α) : Bool :=
  text.isPrefixOf literal || literal.isPrefixOf text

/-- The literal, up to what `fold` does to its items, and then what passes a test. -/
def thenLiteral (fold : α → α) (literal : List α) (next : List α → Bool) (text : List α) : Bool :=
  matchesLiteral (text.map fold) literal && (decide (text.length ≤ literal.length) || next (text.drop literal.length))

/-- The literal and then what passes a test, or another beginning. -/
def orLiteral (literal : List α) (next other : List α → Bool) (text : List α) : Bool :=
  if matchesLiteral text literal = true then
    decide (text.length ≤ literal.length) || next (text.drop literal.length)
  else other text

variable {literal : List α}

theorem matchesLiteral_iff {text : List α} : matchesLiteral text literal ↔ text <+: literal ∨ literal <+: text := by
  simp [matchesLiteral]

theorem matchesLiteral_of_isPrefix (h : s <+: t) (ht : matchesLiteral t literal) : matchesLiteral s literal := by
  rw [matchesLiteral_iff] at ht ⊢
  rcases ht with ht | ht
  · exact .inl (h.trans ht)
  · exact prefix_or_prefix_of_prefix h ht

omit [DecidableEq α] in
theorem next_of_isPrefix (hnext : PrefixClosed next) (h : s <+: t) {n : Nat} (hs : n < s.length)
    (ht : (decide (t.length ≤ n) || next (t.drop n))) : next (s.drop n) := by
  obtain ⟨rest, rfl⟩ := h
  have hne : s.drop n ≠ [] := by
    rw [ne_eq, drop_eq_nil_iff]
    omega
  have hlength : ¬(s ++ rest).length ≤ n := by
    rw [length_append]
    omega
  rw [decide_eq_false hlength, Bool.false_or, drop_append_of_le_length hs.le] at ht
  exact hnext hne (prefix_append _ _) ht

theorem PrefixClosed.thenLiteral {fold : α → α} (hnext : PrefixClosed next) :
    PrefixClosed (thenLiteral fold literal next) := by
  intro s t _ h ht
  obtain ⟨hmatches, hrest⟩ := Bool.and_eq_true_iff.mp ht
  refine Bool.and_eq_true_iff.mpr ⟨matchesLiteral_of_isPrefix (h.map fold) hmatches, ?_⟩
  by_cases hs : s.length ≤ literal.length
  · simp [hs]
  · rw [next_of_isPrefix hnext h (not_le.mp hs) hrest, Bool.or_true]

theorem orLiteral_of_isPrefix (hnext : PrefixClosed next) (h : s <+: t)
    (hother : matchesLiteral s literal = false → other t → other s)
    (ht : orLiteral literal next other t) : orLiteral literal next other s := by
  unfold Unfinished.orLiteral at ht ⊢
  by_cases hs : matchesLiteral s literal
  · rw [if_pos hs]
    by_cases hle : s.length ≤ literal.length
    · simp [hle]
    · have hliteral : literal <+: s := (matchesLiteral_iff.mp hs).resolve_left fun hbegins => hle hbegins.length_le
      rw [if_pos (matchesLiteral_iff.mpr (.inr (hliteral.trans h)))] at ht
      rw [next_of_isPrefix hnext h (not_le.mp hle) ht, Bool.or_true]
  · have ht' : ¬matchesLiteral t literal := fun htrue => hs (matchesLiteral_of_isPrefix h htrue)
    rw [if_neg hs]
    rw [if_neg ht'] at ht
    exact hother (Bool.eq_false_iff.mpr hs) ht

theorem PrefixClosed.orLiteral (hnext : PrefixClosed next) (hother : PrefixClosed other) :
    PrefixClosed (orLiteral literal next other) :=
  fun _ _ hne h ht => orLiteral_of_isPrefix hnext h (fun _ ht => hother hne h ht) ht

end Literals

end Unfinished
