import Mathlib.Data.List.Basic

/-!
# Splitting outside brackets

A scanner reads items one at a time and knows whether it stands outside all brackets. Texts are split at the marks that
stand outside.

- `Scanner.Clear marks p`: `p` closes the brackets it opens and has none of `marks` outside;
- `indexOf_eq_some_none_iff`, `indexOf_eq_some_some_iff`: where the first mark stands.
-/

/-- An automaton that goes through brackets. -/
structure Scanner (σ α : Type*) where
  /-- The state outside all brackets. -/
  start : σ
  /-- The state behind an item, and whether the item stands outside; none where it closes what is not open. -/
  step : σ → α → Option (σ × Bool)

namespace Scanner

open Option List

variable {σ α : Type*} [DecidableEq α] (S : Scanner σ α)

/-- A mark stands outside exactly in the state outside all brackets, and does not leave it. -/
def IsMark (a : α) : Prop :=
  ∀ state state', S.step state a = some (state', true) ↔ state = S.start ∧ state' = S.start

/-! ## Walks -/

/-- The state behind a text that has none of `marks` outside brackets. -/
def walk (marks : List α) : σ → List α → Option σ
  | state, [] => some state
  | state, a :: s =>
    match S.step state a with
    | none => none
    | some (state', outside) => if outside = true ∧ a ∈ marks then none else walk marks state' s

/-- A text that closes the brackets it opens and has none of `marks` outside. -/
def Clear (marks : List α) (p : List α) : Prop :=
  S.walk marks S.start p = some S.start

instance [DecidableEq σ] (marks p : List α) : Decidable (S.Clear marks p) :=
  inferInstanceAs (Decidable (_ = _))

section Walks

variable {S} {marks marks' : List α} {state state' : σ} {p q : List α} {a mark : α}

theorem walk_append : S.walk marks state (p ++ q) = (S.walk marks state p).bind fun next => S.walk marks next q := by
  induction p generalizing state with
  | nil => rfl
  | cons a p ih =>
    rw [cons_append, walk, walk]
    rcases S.step state a with _ | ⟨next, outside⟩
    · rfl
    · by_cases hmark : outside ∧ a ∈ marks
      · simp only [if_pos hmark, bind_none]
      · simp only [if_neg hmark, ih]

theorem walk_append_marks_iff : S.walk (marks ++ marks') state p = some state' ↔
      S.walk marks state p = some state' ∧ S.walk marks' state p = some state' := by
  induction p generalizing state with
  | nil => simp [walk]
  | cons a p ih =>
    simp only [walk]
    rcases S.step state a with _ | ⟨next, outside⟩
    · simp
    by_cases hmark : outside ∧ a ∈ marks
    · simp [hmark]
    by_cases hmark' : outside ∧ a ∈ marks'
    · simp [hmark']
    have hboth : ¬(outside ∧ a ∈ marks ++ marks') := by
      rintro ⟨houtside, hmem⟩
      rcases mem_append.mp hmem with hmem | hmem
      · exact hmark ⟨houtside, hmem⟩
      · exact hmark' ⟨houtside, hmem⟩
    simp only [if_neg hmark, if_neg hmark', if_neg hboth, ih]

theorem walk_nil_marks (h : S.walk marks state p = some state') : S.walk [] state p = some state' := by
  rw [← nil_append marks] at h
  exact (walk_append_marks_iff.mp h).1

theorem walk_cons_eq_some {s : List α} : S.walk marks state (a :: s) = some state' ↔
      ∃ next outside, S.step state a = some (next, outside) ∧ (outside → a ∉ marks) ∧
        S.walk marks next s = some state' := by
  rw [walk]
  rcases S.step state a with _ | ⟨next, outside⟩
  · simp
  by_cases hmark : outside ∧ a ∈ marks
  · simp [hmark]
  simp only [if_neg hmark]
  constructor
  · exact fun h => ⟨next, outside, rfl, fun houtside hmem => hmark ⟨houtside, hmem⟩, h⟩
  · rintro ⟨_, _, hstep, -, h⟩
    cases hstep
    exact h

theorem clear_append_marks_iff : S.Clear (marks ++ marks') p ↔ S.Clear marks p ∧ S.Clear marks' p :=
  walk_append_marks_iff

theorem Clear.balanced (h : S.Clear marks p) : S.Clear [] p := walk_nil_marks h

theorem clear_append_iff (hp : S.Clear [] p) : S.Clear marks (p ++ q) ↔ S.Clear marks p ∧ S.Clear marks q := by
  constructor
  · intro h
    rw [Clear, walk_append] at h
    obtain ⟨next, hnext, hrest⟩ := bind_eq_some_iff.mp h
    obtain rfl : next = S.start := mem_unique (walk_nil_marks hnext) hp
    exact ⟨hnext, hrest⟩
  · rintro ⟨hleft, hright⟩
    rw [Clear, walk_append, hleft]
    exact hright

theorem clear_cons_mark_iff (ha : S.IsMark a) : S.Clear marks (a :: q) ↔ a ∉ marks ∧ S.Clear marks q := by
  have hstep := (ha S.start S.start).mpr ⟨rfl, rfl⟩
  rw [Clear, walk_cons_eq_some]
  constructor
  · rintro ⟨next, outside, hnext, hmem, h⟩
    rw [hstep] at hnext
    cases hnext
    exact ⟨hmem rfl, h⟩
  · rintro ⟨hmem, h⟩
    exact ⟨S.start, true, hstep, fun _ => hmem, h⟩

theorem clear_iff_forall (hp : ∀ a ∈ p, S.IsMark a) : S.Clear marks p ↔ ∀ a ∈ p, a ∉ marks := by
  induction p with
  | nil => exact ⟨fun _ => nofun, fun _ => rfl⟩
  | cons a p ih =>
    obtain ⟨ha, hp⟩ := forall_mem_cons.mp hp
    rw [clear_cons_mark_iff ha, ih hp, forall_mem_cons]

theorem clear_intercalate_iff {pieces : List (List α)} (ha : S.IsMark a) (hmem : a ∉ marks)
    (hpieces : ∀ p ∈ pieces, S.Clear [] p) :
    S.Clear marks ([a].intercalate pieces) ↔ ∀ p ∈ pieces, S.Clear marks p := by
  induction pieces with
  | nil => exact ⟨fun _ => nofun, fun _ => rfl⟩
  | cons p pieces ih =>
    have hp := hpieces p mem_cons_self
    have ih := ih fun q hq => hpieces q (mem_cons_of_mem _ hq)
    cases pieces with
    | nil => simp
    | cons q pieces =>
      rw [intercalate_cons_cons, append_assoc, singleton_append, clear_append_iff hp, clear_cons_mark_iff ha, ih]
      simp [hmem]

end Walks

/-! ## Splitting -/

section Splitting

variable [DecidableEq σ]

/-- The pieces of the rest of a text, the first one begun with `buf`. -/
def splitFrom (mark : α) : σ → List α → List α → Option (List (List α))
  | state, buf, [] => if state = S.start then some [buf] else none
  | state, buf, a :: s =>
    match S.step state a with
    | none => none
    | some (state', outside) =>
      if outside = true ∧ a = mark then (splitFrom mark state' [] s).map (buf :: ·)
      else splitFrom mark state' (buf ++ [a]) s

/-- The pieces of a text between the marks outside brackets. -/
def split (mark : α) (s : List α) : Option (List (List α)) :=
  S.splitFrom mark S.start [] s

variable {S} {mark : α} {state state' : σ} {buf p s : List α} {pieces : List (List α)}

theorem splitFrom_append (h : S.walk [mark] state p = some state') :
    S.splitFrom mark state buf (p ++ s) = S.splitFrom mark state' (buf ++ p) s := by
  induction p generalizing state buf with
  | nil =>
    obtain rfl := some.inj h
    rw [nil_append, append_nil]
  | cons a p ih =>
    obtain ⟨next, outside, hstep, hmem, h⟩ := walk_cons_eq_some.mp h
    have hmark : ¬(outside ∧ a = mark) := fun ⟨houtside, hmark⟩ => hmem houtside (mem_singleton.mpr hmark)
    simp only [cons_append, splitFrom, hstep, if_neg hmark]
    rw [ih h, append_assoc, singleton_append]

theorem splitFrom_eq_some (hmark : S.IsMark mark) (h : S.splitFrom mark state buf s = some pieces) :
    ∃ p rest, pieces = (buf ++ p) :: rest ∧ S.walk [mark] state p = some S.start ∧
      (∀ piece ∈ rest, S.Clear [mark] piece) ∧ s = [mark].intercalate (p :: rest) := by
  induction s generalizing state buf pieces with
  | nil =>
    rw [splitFrom] at h
    split at h
    · rename_i hstate
      cases h
      exact ⟨[], [], by simp, by rw [hstate]; rfl, nofun, by simp⟩
    · cases h
  | cons a s ih =>
    rw [splitFrom] at h
    rcases hstep : S.step state a with _ | ⟨next, outside⟩
    · simp [hstep] at h
    simp only [hstep] at h
    split at h
    · rename_i houtside
      obtain ⟨rfl, rfl⟩ := houtside
      obtain ⟨rest, hrest, rfl⟩ := map_eq_some_iff.mp h
      obtain ⟨hstate, hnext⟩ := (hmark state next).mp hstep
      obtain ⟨p, tail, rfl, hp, htail, rfl⟩ := ih hrest
      rw [hnext] at hp
      refine ⟨[], p :: tail, by simp, by rw [hstate]; rfl, ?_, by simp⟩
      exact forall_mem_cons.mpr ⟨hp, htail⟩
    · rename_i hother
      obtain ⟨p, tail, rfl, hp, htail, rfl⟩ := ih h
      refine ⟨a :: p, tail, by simp, walk_cons_eq_some.mpr ⟨next, outside, hstep, ?_, hp⟩, htail, ?_⟩
      · exact fun houtside hmem => hother ⟨houtside, mem_singleton.mp hmem⟩
      · cases tail <;> simp

theorem exists_splitFrom (h : S.walk [] state s = some S.start) :
    ∃ pieces, S.splitFrom mark state buf s = some pieces := by
  induction s generalizing state buf with
  | nil =>
    obtain rfl := some.inj h
    exact ⟨[buf], if_pos rfl⟩
  | cons a s ih =>
    obtain ⟨next, outside, hstep, -, h⟩ := walk_cons_eq_some.mp h
    simp only [splitFrom, hstep]
    split
    · obtain ⟨pieces, hpieces⟩ : ∃ pieces, S.splitFrom mark next [] s = some pieces := ih h
      exact ⟨buf :: pieces, by rw [hpieces, map_some]⟩
    · exact ih h

theorem Clear.exists_split (h : S.Clear [] s) (mark : α) : ∃ pieces, S.split mark s = some pieces := exists_splitFrom h

theorem split_clear_cons (hmark : S.IsMark mark) (hp : S.Clear [mark] p) :
    S.split mark (p ++ mark :: s) = (S.split mark s).map (p :: ·) := by
  rw [split, splitFrom_append hp, nil_append, splitFrom, (hmark S.start S.start).mpr ⟨rfl, rfl⟩]
  simp only [and_self, if_true]
  rfl

theorem split_clear (hp : S.Clear [mark] p) : S.split mark p = some [p] := by
  have h : S.splitFrom mark S.start [] (p ++ []) = S.splitFrom mark S.start ([] ++ p) [] := splitFrom_append hp
  rw [append_nil] at h
  rw [split, h, nil_append, splitFrom, if_pos rfl]

/-- **Splitting and joining are inverse**: the pieces of a text are the clear texts it joins. -/
theorem split_eq_some_iff (hmark : S.IsMark mark) : S.split mark s = some pieces ↔
      pieces ≠ [] ∧ (∀ p ∈ pieces, S.Clear [mark] p) ∧ s = [mark].intercalate pieces := by
  constructor
  · intro h
    obtain ⟨p, rest, rfl, hp, hrest, hs⟩ := splitFrom_eq_some hmark h
    exact ⟨by simp, forall_mem_cons.mpr ⟨hp, hrest⟩, hs⟩
  · rintro ⟨hne, hpieces, rfl⟩
    induction pieces with
    | nil => exact absurd rfl hne
    | cons p pieces ih =>
      obtain ⟨hp, hrest⟩ := forall_mem_cons.mp hpieces
      cases pieces with
      | nil => rw [intercalate_singleton, split_clear hp]
      | cons q pieces =>
        rw [intercalate_cons_cons, append_assoc, singleton_append, split_clear_cons hmark hp, ih (by simp) hrest]
        rfl

end Splitting

section First

variable [DecidableEq σ]

/-- Where the first mark outside brackets stands in the rest of a text, which begins at `i`. -/
def indexFrom (mark : α) : σ → Nat → List α → Option (Option Nat)
  | state, _, [] => if state = S.start then some none else none
  | state, i, a :: s =>
    match S.step state a with
    | none => none
    | some (state', outside) => if outside = true ∧ a = mark then some (some i) else indexFrom mark state' (i + 1) s

/-- Where the first mark outside brackets stands. -/
def indexOf (mark : α) (s : List α) : Option (Option Nat) :=
  S.indexFrom mark S.start 0 s

variable {S} {mark : α} {state : σ} {i j : Nat} {s : List α}

theorem indexFrom_eq_some_none_iff : S.indexFrom mark state i s = some none ↔ S.walk [mark] state s = some S.start := by
  induction s generalizing state i with
  | nil => simp [indexFrom, walk]
  | cons a s ih =>
    rw [indexFrom, walk]
    rcases S.step state a with _ | ⟨next, outside⟩
    · simp
    · by_cases hmark : outside ∧ a = mark
      · simp [hmark]
      · simp only [if_neg hmark, mem_singleton, ih]

theorem indexOf_eq_some_none_iff : S.indexOf mark s = some none ↔ S.Clear [mark] s := indexFrom_eq_some_none_iff

theorem indexFrom_eq_some_some_iff (hmark : S.IsMark mark) : S.indexFrom mark state i s = some (some j) ↔
      ∃ p q, s = p ++ mark :: q ∧ j = i + p.length ∧ S.walk [mark] state p = some S.start := by
  induction s generalizing state i with
  | nil =>
    rw [indexFrom]
    split <;> simp
  | cons a s ih =>
    rw [indexFrom]
    constructor
    · intro h
      rcases hstep : S.step state a with _ | ⟨next, outside⟩
      · simp [hstep] at h
      simp only [hstep] at h
      split at h
      · rename_i houtside
        obtain ⟨rfl, rfl⟩ := houtside
        obtain ⟨hstate, -⟩ := (hmark state next).mp hstep
        obtain rfl := some.inj (some.inj h)
        exact ⟨[], s, rfl, rfl, by rw [hstate]; rfl⟩
      · rename_i hother
        obtain ⟨p, q, rfl, rfl, hp⟩ := ih.mp h
        refine ⟨a :: p, q, rfl, by rw [length_cons]; omega, ?_⟩
        exact walk_cons_eq_some.mpr
          ⟨next, outside, hstep, fun houtside hmem => hother ⟨houtside, mem_singleton.mp hmem⟩, hp⟩
    · rintro ⟨p, q, hs, rfl, hp⟩
      cases p with
      | nil =>
        obtain ⟨rfl, rfl⟩ := cons.inj hs
        obtain rfl := some.inj hp
        simp [(hmark S.start S.start).mpr ⟨rfl, rfl⟩]
      | cons b p =>
        obtain ⟨rfl, rfl⟩ := cons.inj hs
        obtain ⟨next, outside, hstep, hmem, hp⟩ := walk_cons_eq_some.mp hp
        have hother : ¬(outside ∧ a = mark) := fun ⟨houtside, hmark⟩ => hmem houtside (mem_singleton.mpr hmark)
        simp only [hstep, if_neg hother]
        exact ih.mpr ⟨p, q, rfl, by rw [length_cons]; omega, hp⟩

theorem indexOf_eq_some_some_iff (hmark : S.IsMark mark) :
    S.indexOf mark s = some (some j) ↔ ∃ p q, s = p ++ mark :: q ∧ j = p.length ∧ S.Clear [mark] p := by
  rw [indexOf, indexFrom_eq_some_some_iff hmark]
  simp only [Nat.zero_add]
  rfl

end First

end Scanner
