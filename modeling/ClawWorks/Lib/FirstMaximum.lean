import Mathlib.Data.List.MinMax

/-!
# The first of the greatest

`List.argmax f l` is the first item at which `f` is greatest: what a chain of searches for the strongest, the second
strongest, … finds.

- `argmax_eq_some_iff_split`: everything before it is smaller, nothing after it is greater;
- `map_argmax_perm`: its value does not depend on the order of the list, the item may;
- `argmax_insert`: one more item takes over or changes nothing.
-/

namespace List

variable {α β : Type*} [LinearOrder β] {f : α → β}

theorem argmax_eq_some_iff_split {l : List α} {a : α} : argmax f l = some a ↔
      ∃ before after, l = before ++ a :: after ∧ (∀ b ∈ before, f b < f a) ∧ ∀ b ∈ after, f b ≤ f a := by
  induction l generalizing a with
  | nil => simp
  | cons c l ih =>
    rw [argmax_cons]
    cases hmax : argmax f l with
    | none =>
      have hnil := argmax_eq_none.mp hmax
      subst hnil
      constructor
      · rintro h
        obtain rfl := Option.some.inj h
        exact ⟨[], [], rfl, by simp, by simp⟩
      · rintro ⟨before, after, hsplit, -, -⟩
        cases before with
        | nil => rw [(cons.inj hsplit).1]
        | cons b before => simp at hsplit
    | some m =>
      obtain ⟨before, after, rfl, hbefore, hafter⟩ := ih.mp hmax
      have hle : ∀ b ∈ before ++ m :: after, f b ≤ f m := fun b hb => le_of_mem_argmax hb hmax
      by_cases hlt : f c < f m
      · simp only [if_pos hlt]
        constructor
        · intro h
          obtain rfl := Option.some.inj h
          exact ⟨c :: before, after, rfl, by simpa [hlt] using hbefore, hafter⟩
        · rintro ⟨before', after', hsplit, hbefore', hafter'⟩
          cases before' with
          | nil =>
            obtain ⟨rfl, rfl⟩ := cons.inj hsplit
            exact absurd (hafter' m (by simp)) (not_le.mpr hlt)
          | cons b before' =>
            obtain ⟨rfl, hrest⟩ := cons.inj hsplit
            rw [← hmax]
            exact ih.mpr ⟨before', after', hrest, fun x hx => hbefore' x (mem_cons_of_mem _ hx), hafter'⟩
      · simp only [if_neg hlt]
        constructor
        · intro h
          obtain rfl := Option.some.inj h
          exact ⟨[], before ++ m :: after, rfl, by simp, fun b hb => (hle b hb).trans (not_lt.mp hlt)⟩
        · rintro ⟨before', after', hsplit, hbefore', hafter'⟩
          cases before' with
          | nil => rw [(cons.inj hsplit).1]
          | cons b before' =>
            obtain ⟨rfl, hrest⟩ := cons.inj hsplit
            have hca : f c < f a := hbefore' c (by simp)
            have ham : f a ≤ f m := hle a (by rw [hrest]; simp)
            exact absurd (hca.trans_le ham) hlt

theorem map_argmax_perm {l l' : List α} (h : l.Perm l') : (argmax f l).map f = (argmax f l').map f := by
  cases hl : argmax f l with
  | none =>
    rw [argmax_eq_none] at hl
    subst hl
    rw [nil_perm.mp h]
    rfl
  | some a =>
    cases hl' : argmax f l' with
    | none =>
      rw [argmax_eq_none] at hl'
      subst hl'
      rw [perm_nil.mp h] at hl
      cases hl
    | some b =>
      have hab : f b ≤ f a := le_of_mem_argmax (h.mem_iff.mpr (argmax_mem hl')) hl
      have hba : f a ≤ f b := le_of_mem_argmax (h.mem_iff.mp (argmax_mem hl)) hl'
      exact congrArg some (le_antisymm hba hab)

theorem argmax_insert (l₁ l₂ : List α) (p : α) :
    (argmax f (l₁ ++ p :: l₂) = some p ∧ (∀ b ∈ l₁, f b < f p) ∧ ∀ b ∈ l₂, f b ≤ f p) ∨
      argmax f (l₁ ++ p :: l₂) = argmax f (l₁ ++ l₂) := by
  by_cases hp : (∀ b ∈ l₁, f b < f p) ∧ ∀ b ∈ l₂, f b ≤ f p
  · exact Or.inl ⟨argmax_eq_some_iff_split.mpr ⟨l₁, l₂, rfl, hp.1, hp.2⟩, hp⟩
  right
  cases hmax : argmax f (l₁ ++ p :: l₂) with
  | none =>
    rw [argmax_eq_none] at hmax
    simp at hmax
  | some m =>
    symm
    obtain ⟨before, after, hsplit, hbefore, hafter⟩ := argmax_eq_some_iff_split.mp hmax
    rw [argmax_eq_some_iff_split]
    rcases append_eq_append_iff.mp hsplit with ⟨mid, rfl, hrest⟩ | ⟨mid, rfl, hrest⟩
    · cases mid with
      | nil =>
        obtain ⟨rfl, rfl⟩ := cons.inj hrest
        exact absurd ⟨by simpa using hbefore, hafter⟩ hp
      | cons q mid =>
        obtain ⟨rfl, rfl⟩ := cons.inj hrest
        refine ⟨l₁ ++ mid, after, by simp, fun b hb => hbefore b ?_, hafter⟩
        rcases mem_append.mp hb with h | h
        · exact mem_append_left _ h
        · exact mem_append_right _ (mem_cons_of_mem _ h)
    · cases mid with
      | nil =>
        obtain ⟨rfl, rfl⟩ := cons.inj hrest.symm
        exact absurd ⟨by simpa using hbefore, hafter⟩ hp
      | cons q mid =>
        obtain ⟨rfl, rfl⟩ := cons.inj hrest
        refine ⟨before, mid ++ l₂, by simp, hbefore, fun b hb => hafter b ?_⟩
        rcases mem_append.mp hb with h | h
        · exact mem_append_left _ h
        · exact mem_append_right _ (mem_cons_of_mem _ h)

end List
