import ClawWorks.Lib.Splits

/-!
# Sets kept as a log of edits

A set that is not stored but replayed from a log: each edit adds some items or drops some.

- `mem_replay_concat`: what one more edit does to the replayed set.
-/

namespace EditLog

variable {α : Type*}

/-- One entry of the log. -/
inductive Edit (α : Type*)
  | add (items : List α)
  | drop (items : List α)

/-- The edit puts the item into the set. -/
def Edit.Adds (a : α) : Edit α → Prop
  | .add items => a ∈ items
  | .drop _ => False

/-- The edit takes the item out of the set. -/
def Edit.Drops (a : α) : Edit α → Prop
  | .add _ => False
  | .drop items => a ∈ items

/-- Some edit added the item and no later one dropped it. -/
def Stands (a : α) (log : List (Edit α)) : Prop :=
  ∃ before e after, log = before ++ e :: after ∧ e.Adds a ∧ ∀ d ∈ after, ¬ d.Drops a

theorem stands_concat {a : α} {log : List (Edit α)} {e : Edit α} :
    Stands a (log ++ [e]) ↔ e.Adds a ∨ (Stands a log ∧ ¬ e.Drops a) := by
  constructor
  · rintro ⟨before, d, after, hlog, hd, hafter⟩
    rcases List.concat_eq_append_cons_iff.mp hlog with ⟨-, rfl, -⟩ | ⟨rest, rfl, hinit⟩
    · exact Or.inl hd
    · exact Or.inr ⟨⟨before, d, rest, hinit, hd, fun x hx => hafter x (by simp [hx])⟩, hafter e (by simp)⟩
  · rintro (hadd | ⟨⟨before, d, after, rfl, hd, hafter⟩, hdrop⟩)
    · exact ⟨log, e, [], rfl, hadd, by simp⟩
    · refine ⟨before, d, after ++ [e], by simp, hd, fun x hx => ?_⟩
      rw [List.mem_append, List.mem_singleton] at hx
      rcases hx with hx | rfl
      · exact hafter x hx
      · exact hdrop

/-! ## One edit -/

variable [DecidableEq α]

/-- Insertion into a set that remembers the order of first insertion. -/
def insertNew (s : List α) (a : α) : List α :=
  if a ∈ s then s else s ++ [a]

/-- Deletion from such a set. -/
def dropItem (s : List α) (a : α) : List α :=
  s.filter (· ≠ a)

/-- The effect of one edit on the set. -/
def Edit.apply (s : List α) : Edit α → List α
  | .add items => items.foldl insertNew s
  | .drop items => items.foldl dropItem s

/-- The set a log describes. -/
def replay (log : List (Edit α)) : List α :=
  log.foldl Edit.apply []

@[simp] theorem mem_insertNew {s : List α} {a b : α} : b ∈ insertNew s a ↔ b ∈ s ∨ b = a := by
  unfold insertNew
  split
  · rename_i h
    constructor
    · exact Or.inl
    · rintro (hb | rfl)
      · exact hb
      · exact h
  · simp

@[simp] theorem mem_dropItem {s : List α} {a b : α} : b ∈ dropItem s a ↔ b ∈ s ∧ b ≠ a := by
  simp [dropItem]

theorem mem_foldl_insertNew {b : α} : ∀ {items s : List α}, b ∈ items.foldl insertNew s ↔ b ∈ s ∨ b ∈ items
  | [], _ => by simp
  | a :: items, s => by
    rw [List.foldl_cons, mem_foldl_insertNew, mem_insertNew, List.mem_cons, or_assoc]

theorem mem_foldl_dropItem {b : α} : ∀ {items s : List α}, b ∈ items.foldl dropItem s ↔ b ∈ s ∧ b ∉ items
  | [], _ => by simp
  | a :: items, s => by
    rw [List.foldl_cons, mem_foldl_dropItem, mem_dropItem, List.mem_cons, not_or, and_assoc]

theorem Edit.mem_apply {b : α} {s : List α} : ∀ {e : Edit α}, b ∈ e.apply s ↔ e.Adds b ∨ (b ∈ s ∧ ¬ e.Drops b)
  | .add items => by simp only [Edit.apply, Edit.Adds, Edit.Drops, mem_foldl_insertNew]; tauto
  | .drop items => by simp only [Edit.apply, Edit.Adds, Edit.Drops, mem_foldl_dropItem]; tauto

theorem mem_replay_concat {b : α} {log : List (Edit α)} {e : Edit α} :
    b ∈ replay (log ++ [e]) ↔ e.Adds b ∨ (b ∈ replay log ∧ ¬ e.Drops b) := by
  unfold replay
  rw [List.foldl_append]
  exact Edit.mem_apply

theorem mem_replay {a : α} (log : List (Edit α)) : a ∈ replay log ↔ Stands a log := by
  induction log using List.reverseRecOn with
  | nil => simp [replay, Stands]
  | append_singleton log e ih => rw [mem_replay_concat, stands_concat, ih]

end EditLog
