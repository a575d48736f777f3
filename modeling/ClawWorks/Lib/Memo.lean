import Mathlib.Data.Set.Basic

/-!
# Remembered answers

A table remembers the answers to questions it has been asked, under a key of the question. It may forget.

- `Remembers`: every answer in the table was computed for a question asked, under its key;
- `Remembers.answer`: where questions with one key have one answer, a remembered answer is the right one.
-/

namespace Memo

variable {ι κ α : Type*}

def Remembers (asked : Set ι) (key : ι → κ) (compute : ι → α) (entries : List (κ × α)) : Prop :=
  ∀ entry ∈ entries, ∃ question ∈ asked, key question = entry.1 ∧ compute question = entry.2

variable {asked : Set ι} {key : ι → κ} {compute : ι → α} {entries : List (κ × α)}

theorem remembers_nil : Remembers asked key compute [] := fun _ h => nomatch h

theorem Remembers.insert (h : Remembers asked key compute entries) {question : ι} (hasked : question ∈ asked)
    {entries' : List (κ × α)}
    (hentries : ∀ entry ∈ entries', entry = (key question, compute question) ∨ entry ∈ entries) :
    Remembers asked key compute entries' := by
  intro entry hentry
  rcases hentries entry hentry with rfl | hold
  · exact ⟨question, hasked, rfl, rfl⟩
  · exact h entry hold

theorem Remembers.answer (h : Remembers asked key compute entries) (question : ι)
    (hdecides : ∀ other ∈ asked, key other = key question → compute other = compute question) {answer : α}
    (hentry : (key question, answer) ∈ entries) : answer = compute question := by
  obtain ⟨other, hother, hkey, hanswer⟩ := h _ hentry
  exact hanswer.symm.trans (hdecides other hother hkey)

end Memo
