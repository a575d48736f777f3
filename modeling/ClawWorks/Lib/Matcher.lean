import Mathlib.Data.List.Infix

/-!
# Backtracking matchers

A matcher gives what is left of a list after each way to match a beginning of it, in the order a backtracking engine
tries them; the first one for which the rest goes on is the match.

- `Matcher.seq`, `alt`, `opt`, `star`, `plus`, `notAhead`: the operations, greedy where there is a choice;
- `Matcher.star_of_none`, `Matcher.seq_of_none`: where nothing matches.
-/

namespace ClawWorks

/-- The rests after a match, in the order they are tried. -/
abbrev Matcher (α : Type*) := List α → List (List α)

namespace Matcher

variable {α : Type*}

/-- One item. -/
def unit (p : α → Bool) : Matcher α
  | [] => []
  | a :: s => if p a then [s] else []

def empty : Matcher α := fun s => [s]

/-- Items that correspond to given ones. -/
def word {β : Type*} (same : β → α → Bool) : List β → Matcher α
  | [] => empty
  | b :: w => fun s => (unit (same b) s).flatMap (word same w)

def seq (m n : Matcher α) : Matcher α := fun s => (m s).flatMap n

def alt (m n : Matcher α) : Matcher α := fun s => m s ++ n s

/-- `m?`. -/
def opt (m : Matcher α) : Matcher α := alt m empty

/-- `m*` with at most as many rounds; a round that reads nothing ends it. -/
def rounds (m : Matcher α) : Nat → Matcher α
  | 0 => empty
  | n + 1 => fun s => ((m s).filter fun r => decide (r.length < s.length)).flatMap (rounds m n) ++ [s]

/-- `m*`. -/
def star (m : Matcher α) : Matcher α := fun s => rounds m s.length s

/-- `m+`. -/
def plus (m : Matcher α) : Matcher α := seq m (star m)

/-- `(?!m)`. -/
def notAhead (m : Matcher α) : Matcher α := fun s => if (m s).isEmpty then [s] else []

theorem unit_of_not {p : α → Bool} {a : α} (h : p a = false) (s : List α) : unit p (a :: s) = [] := by
  rw [unit, h]
  exact if_neg Bool.false_ne_true

theorem star_of_none {m : Matcher α} {s : List α} (h : m s = []) : star m s = [s] := by
  cases s with
  | nil => rfl
  | cons a s =>
    show ((m (a :: s)).filter _).flatMap _ ++ [a :: s] = [a :: s]
    rw [h]
    rfl

theorem seq_of_none {m : Matcher α} (n : Matcher α) {s : List α} (h : m s = []) : seq m n s = [] := by
  rw [seq, h, List.flatMap_nil]

end Matcher

end ClawWorks
