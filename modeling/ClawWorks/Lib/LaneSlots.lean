import Mathlib.Logic.Function.Basic
import ClawWorks.Lib.Splits

/-!
# One slot per lane

Items are armed in lanes and later taken out. A lane holds one item: arming supersedes what was there, taking empties
the lane. The state is a function of the log of what happened.

- `slots log`: what each lane holds after `log`, with `slots_concat`;
- `Honest log`: every item taken was in its lane, kept by `Honest.arm`, `Honest.take`.
-/

namespace LaneSlots

open List

variable {Λ μ τ : Type*}

/-- What happens to a lane: an item is armed, or a taker takes one out. -/
inductive Event (Λ μ τ : Type*)
  | armed (lane : Λ) (item : μ)
  | taken (lane : Λ) (item : μ) (taker : τ)

def Event.lane : Event Λ μ τ → Λ
  | .armed l _ => l
  | .taken l _ _ => l

section

variable [DecidableEq Λ]

/-- The effect of an event on the lanes. -/
def Event.apply (slots : Λ → Option μ) : Event Λ μ τ → Λ → Option μ
  | .armed l m => Function.update slots l (some m)
  | .taken l _ _ => Function.update slots l none

/-- What each lane holds after a log. -/
def slots (log : List (Event Λ μ τ)) : Λ → Option μ :=
  log.foldl Event.apply fun _ => none

@[simp] theorem slots_nil (l : Λ) : slots ([] : List (Event Λ μ τ)) l = none := rfl

variable (log : List (Event Λ μ τ))

theorem slots_concat (e : Event Λ μ τ) : slots (log ++ [e]) = e.apply (slots log) := by
  unfold slots
  rw [foldl_append]
  rfl

theorem slots_armed (l k : Λ) (m : μ) : slots (log ++ [.armed l m]) k = if k = l then some m else slots log k := by
  rw [slots_concat]
  exact Function.update_apply (slots log) l (some m) k

theorem slots_taken (l k : Λ) (m : μ) (t : τ) :
    slots (log ++ [.taken l m t]) k = if k = l then none else slots log k := by
  rw [slots_concat]
  exact Function.update_apply (slots log) l none k

variable {log : List (Event Λ μ τ)} {l : Λ}

theorem slots_concat_of_ne {e : Event Λ μ τ} (h : l ≠ e.lane) : slots (log ++ [e]) l = slots log l := by
  cases e with
  | armed k m => rw [slots_armed]; exact if_neg h
  | taken k m t => rw [slots_taken]; exact if_neg h

theorem slots_eq_some_iff {m : μ} (log : List (Event Λ μ τ)) :
    slots log l = some m ↔ ∃ before after, log = before ++ .armed l m :: after ∧ ∀ e ∈ after, e.lane ≠ l := by
  induction log using reverseRecOn with
  | nil => simp
  | append_singleton log e ih =>
    by_cases hl : l = e.lane
    · constructor
      · intro h
        cases e with
        | armed k n =>
          obtain rfl : l = k := hl
          rw [slots_armed, if_pos rfl, Option.some.injEq] at h
          exact ⟨log, [], by rw [h], by simp⟩
        | taken k n t =>
          obtain rfl : l = k := hl
          rw [slots_taken, if_pos rfl] at h
          cases h
      · rintro ⟨before, after, hlog, hquiet⟩
        rcases concat_eq_append_cons_iff.mp hlog with ⟨-, rfl, -⟩ | ⟨rest, rfl, -⟩
        · rw [slots_armed, if_pos rfl]
        · exact absurd hl.symm (hquiet e (by simp))
    · rw [slots_concat_of_ne hl, ih]
      constructor
      · rintro ⟨before, after, rfl, hquiet⟩
        refine ⟨before, after ++ [e], by simp, fun x hx => ?_⟩
        rw [mem_append, mem_singleton] at hx
        rcases hx with hx | rfl
        · exact hquiet x hx
        · exact fun h => hl h.symm
      · rintro ⟨before, after, hlog, hquiet⟩
        rcases concat_eq_append_cons_iff.mp hlog with ⟨-, rfl, -⟩ | ⟨rest, rfl, hinit⟩
        · exact absurd rfl hl
        · exact ⟨before, rest, hinit, fun x hx => hquiet x (by simp [hx])⟩

/-- Every item taken was what its lane held at that moment. -/
def Honest (log : List (Event Λ μ τ)) : Prop :=
  ∀ before l m t after, log = before ++ .taken l m t :: after → slots before l = some m

theorem honest_nil : Honest ([] : List (Event Λ μ τ)) := by
  intro before l m t after h
  simp at h

theorem Honest.concat (h : Honest log) {e : Event Λ μ τ}
    (he : ∀ l m t, e = .taken l m t → slots log l = some m) : Honest (log ++ [e]) := by
  intro before l m t after hlog
  rcases concat_eq_append_cons_iff.mp hlog with ⟨rfl, hlast, -⟩ | ⟨rest, -, hinit⟩
  · exact he l m t hlast
  · exact h before l m t rest hinit

theorem Honest.arm (h : Honest log) (l : Λ) (m : μ) : Honest (log ++ [.armed l m]) :=
  h.concat fun _ _ _ he => by cases he

theorem Honest.take (h : Honest log) {m : μ} (hm : slots log l = some m) (t : τ) : Honest (log ++ [.taken l m t]) :=
  h.concat fun l' m' t' he => by cases he; exact hm

/-- **No item is taken twice**: between two takes of a lane, the lane is armed again. -/
theorem Honest.taken_once {log before mid after : List (Event Λ μ τ)} (h : Honest log) {m n : μ} {t u : τ}
    (hlog : log = before ++ .taken l m t :: mid ++ .taken l n u :: after) : ∃ e ∈ mid, e = .armed l n := by
  have hsecond : slots (before ++ .taken l m t :: mid) l = some n := h _ l n u after hlog
  obtain ⟨pre, post, hsplit, hquiet⟩ := (slots_eq_some_iff _).mp hsecond
  -- the arming stands behind the first take, or the lane would not have been quiet since
  rcases append_eq_append_iff.mp hsplit with ⟨as, hpre, hrest⟩ | ⟨cs, hbefore, hrest⟩
  · cases as with
    | nil => simp at hrest
    | cons a as =>
      rw [cons_append, cons.injEq] at hrest
      obtain ⟨-, hmid⟩ := hrest
      exact ⟨.armed l n, by rw [hmid]; simp, rfl⟩
  · cases cs with
    | nil => simp at hrest
    | cons c cs =>
      rw [cons_append, cons.injEq] at hrest
      obtain ⟨-, hpost⟩ := hrest
      exact absurd rfl (hquiet (.taken l m t) (by rw [hpost]; simp))

end

end LaneSlots
