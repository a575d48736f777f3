import Mathlib.Data.List.Infix

/-!
# Runs of a state machine

The state after a list of inputs, taken one after the other.

- `stays`: what one state has and every input keeps is still there later in the run.
-/

namespace Runs

variable {σ ι : Type*} (step : σ → ι → σ) (start : σ)

def after (run : List ι) : σ :=
  run.foldl step start

@[simp] theorem after_nil : after step start [] = start := rfl

@[simp] theorem after_concat (run : List ι) (i : ι) :
    after step start (run ++ [i]) = step (after step start run) i := by
  simp [after]

/-- Every input of the run meets a state where the condition holds of it. -/
def EachStep (Allowed : σ → ι → Prop) (run : List ι) : Prop :=
  ∀ before i, before ++ [i] <+: run → Allowed (after step start before) i

variable {step start}

variable {Allowed : σ → ι → Prop}

theorem EachStep.of_prefix {run shorter : List ι} (h : EachStep step start Allowed run)
    (hearly : shorter <+: run) : EachStep step start Allowed shorter := by
  intro before i hbefore
  exact h before i (hbefore.trans hearly)

theorem EachStep.last {run : List ι} {i : ι} (h : EachStep step start Allowed (run ++ [i])) :
    Allowed (after step start run) i :=
  h run i List.prefix_rfl

theorem eachStep_true (run : List ι) : EachStep step start (fun _ _ => True) run := fun _ _ _ => trivial

theorem EachStep.cons {i : ι} {rest : List ι} (hfirst : Allowed start i)
    (hrest : EachStep step (step start i) Allowed rest) : EachStep step start Allowed (i :: rest) := by
  intro before j hearly
  cases before with
  | nil =>
    obtain ⟨rfl, -⟩ := List.cons_prefix_cons.mp hearly
    exact hfirst
  | cons first before =>
    obtain ⟨rfl, htail⟩ := List.cons_prefix_cons.mp hearly
    exact hrest before j htail

theorem eachStep_nil : EachStep step start Allowed [] := by
  intro before i hearly
  simp at hearly

theorem invariant_of_eachStep {P : List ι → σ → Prop} (hstart : P [] start)
    (hstep : ∀ run i, P run (after step start run) → Allowed (after step start run) i →
      P (run ++ [i]) (step (after step start run) i)) :
    ∀ run, EachStep step start Allowed run → P run (after step start run) := by
  intro run
  induction run using List.reverseRecOn with
  | nil => exact fun _ => hstart
  | append_singleton run i ih =>
    intro hall
    rw [after_concat]
    exact hstep run i (ih (hall.of_prefix (List.prefix_append _ _))) hall.last

theorem invariant {P : List ι → σ → Prop} (hstart : P [] start)
    (hstep : ∀ run i, P run (after step start run) → P (run ++ [i]) (step (after step start run) i)) (run : List ι) :
    P run (after step start run) :=
  invariant_of_eachStep hstart (fun run i h (_ : True) => hstep run i h) run (eachStep_true run)

theorem stays {P : σ → Prop} {before : List ι} (hnow : P (after step start before)) (later : List ι)
    (hkeep : ∀ middle i, middle ++ [i] <+: later → P (after step start (before ++ middle)) →
      P (step (after step start (before ++ middle)) i)) : P (after step start (before ++ later)) := by
  induction later using List.reverseRecOn with
  | nil => rwa [List.append_nil]
  | append_singleton later i ih =>
    have hlater := ih fun middle j hj => hkeep middle j (hj.trans (List.prefix_append _ _))
    rw [← List.append_assoc, after_concat]
    exact hkeep later i List.prefix_rfl hlater

/-- How often the inputs of a run meet a state where `event` holds of them. -/
def occurrences (step : σ → ι → σ) (event : σ → ι → Bool) : σ → List ι → ℕ
  | _, [] => 0
  | s, i :: run => (if event s i then 1 else 0) + occurrences step event (step s i) run

theorem occurrences_le {event : σ → ι → Bool} {I : σ → Prop} {potential : σ → ℕ} (hkeep : ∀ s i, I s → I (step s i))
    (hpay : ∀ s i, I s → (if event s i then 1 else 0) + potential (step s i) ≤ potential s) {s : σ} (hs : I s)
    (run : List ι) : occurrences step event s run ≤ potential s := by
  induction run generalizing s with
  | nil => exact Nat.zero_le _
  | cons i run ih =>
    have hrest := ih (hkeep s i hs)
    have hfirst := hpay s i hs
    unfold occurrences
    omega

end Runs
