import Mathlib.Data.List.Basic

/-!
# Programs that run side by side

A program performs actions one after the other, each on the reply to the one before. Programs share a world; the world
changes with the actions, one program at a time takes a step, and a crash ends them all.

- `Prog`, `Prog.bind`: programs and their sequence.
-/

namespace ClawWorks

/-- A value, or an action and what follows each reply. -/
inductive Prog (E : Type) (R : E → Type) (α : Type)
  | done (a : α)
  | act (e : E) (next : R e → Prog E R α)

namespace Prog

variable {E : Type} {R : E → Type} {α β : Type}

def bind : Prog E R α → (α → Prog E R β) → Prog E R β
  | .done a, f => f a
  | .act e next, f => .act e fun reply => (next reply).bind f

instance : Monad (Prog E R) where
  pure := .done
  bind := bind

/-- One action; its reply is the value. -/
def perform (e : E) : Prog E R (R e) :=
  .act e .done

end Prog

/-- A view of the world that a program has, what it allows, and how actions change it. -/
structure Discipline (E : Type) (R : E → Type) (V : Type) where
  Can : V → E → Prop
  Next : V → (e : E) → R e → V → Prop

namespace Prog

variable {E : Type} {R : E → Type} {V : Type} {α β : Type} {d : Discipline E R V}

/-- Every action is one the view allows, and the value comes with the last view. -/
def Meets (d : Discipline E R V) : Prog E R α → (α → V → Prop) → V → Prop
  | .done a, post, v => post a v
  | .act e next, post, v => d.Can v e ∧ ∀ reply v', d.Next v e reply v' → (next reply).Meets d post v'

variable {p : Prog E R α} {post : β → V → Prop} {f : α → Prog E R β} {v : V}

theorem Meets.bind (h : p.Meets d (fun a v' => (f a).Meets d post v') v) : (p >>= f).Meets d post v := by
  induction p generalizing v with
  | done a => exact h
  | act e next ih =>
    obtain ⟨hcan, hnext⟩ := h
    exact ⟨hcan, fun reply v' hv' => ih reply (hnext reply v' hv')⟩

theorem Meets.mono {post post' : α → V → Prop} (h : p.Meets d post v)
    (hpost : ∀ a v', post a v' → post' a v') : p.Meets d post' v := by
  induction p generalizing v with
  | done a => exact hpost a v h
  | act e next ih =>
    obtain ⟨hcan, hnext⟩ := h
    exact ⟨hcan, fun reply v' hv' => ih reply (hnext reply v' hv')⟩

theorem Meets.seq {middle : α → V → Prop}
    (h : p.Meets d middle v) (hf : ∀ a v', middle a v' → (f a).Meets d post v') : (p >>= f).Meets d post v :=
  (h.mono hf).bind

end Prog

/-! ## Systems -/

/-- How a world answers actions, changes with them, and what a crash leaves of it. -/
structure Machine (E : Type) (R : E → Type) (W : Type) where
  Answers : W → (e : E) → R e → Prop
  after : W → (e : E) → R e → W
  crash : W → W

namespace Threads

variable {E : Type} {R : E → Type} {W V : Type}

structure Config (E : Type) (R : E → Type) (W : Type) where
  world : W
  threads : List (Prog E R Unit)

inductive Move (E : Type) (R : E → Type)
  | spawn
  | act (e : E) (reply : R e)
  | crash

inductive Step (m : Machine E R W) (Starts : Prog E R Unit → Prop) : Config E R W → Move E R → Config E R W → Prop
  | spawn {w : W} {threads : List (Prog E R Unit)} {p : Prog E R Unit} (h : Starts p) :
      Step m Starts ⟨w, threads⟩ .spawn ⟨w, p :: threads⟩
  | act {w : W} {before after : List (Prog E R Unit)} {e : E} {next : R e → Prog E R Unit} {reply : R e}
      (h : m.Answers w e reply) :
      Step m Starts ⟨w, before ++ .act e next :: after⟩ (.act e reply)
        ⟨m.after w e reply, before ++ next reply :: after⟩
  | crash {w : W} {threads : List (Prog E R Unit)} : Step m Starts ⟨w, threads⟩ .crash ⟨m.crash w, []⟩

/-- What runs from a world reach whose steps all meet a condition on the world before them. -/
inductive Reaches (m : Machine E R W) (Starts : Prog E R Unit → Prop) (Cond : W → Move E R → Prop) (w₀ : W) :
    Config E R W → Prop
  | start : Reaches m Starts Cond w₀ ⟨w₀, []⟩
  | step {c c' : Config E R W} {move : Move E R} (h : Reaches m Starts Cond w₀ c) (hcond : Cond c.world move)
      (hstep : Step m Starts c move c') : Reaches m Starts Cond w₀ c'

/-- What makes a relation between a world and the views of its programs an invariant. -/
structure Keeps (m : Machine E R W) (Cond : W → Move E R → Prop) (d : Discipline E R V) (idle : V)
    (Inv : W → List V → Prop) : Prop where
  spawn {w : W} {views : List V} (h : Inv w views) : Inv w (idle :: views)
  act {w : W} {before after : List V} {v : V} {e : E} {reply : R e} (h : Inv w (before ++ v :: after))
    (hcan : d.Can v e) (hanswer : m.Answers w e reply) (hcond : Cond w (.act e reply)) :
    ∃ v', d.Next v e reply v' ∧ Inv (m.after w e reply) (before ++ v' :: after)
  crash {w : W} {views : List V} (h : Inv w views) (hcond : Cond w .crash) : Inv (m.crash w) []

variable {m : Machine E R W} {Starts : Prog E R Unit → Prop} {Cond : W → Move E R → Prop} {w₀ : W}
  {d : Discipline E R V} {idle : V} {Inv : W → List V → Prop}

abbrev AllMeet (d : Discipline E R V) (threads : List (Prog E R Unit)) (views : List V) : Prop :=
  List.Forall₂ (fun p v => Prog.Meets d p (fun _ _ => True) v) threads views

variable {p : Prog E R Unit} {before after : List (Prog E R Unit)}

theorem AllMeet.split {views : List V} (h : AllMeet d (before ++ p :: after) views) :
    ∃ earlier v later, views = earlier ++ v :: later ∧ AllMeet d before earlier ∧
      Prog.Meets d p (fun _ _ => True) v ∧ AllMeet d after later := by
  induction before generalizing views with
  | nil =>
    cases h with
    | cons hp hafter => exact ⟨[], _, _, rfl, List.Forall₂.nil, hp, hafter⟩
  | cons q before ih =>
    cases h with
    | cons hq hrest =>
      obtain ⟨earlier, v, later, rfl, hbefore, hp, hafter⟩ := ih hrest
      exact ⟨_ :: earlier, v, later, rfl, List.Forall₂.cons hq hbefore, hp, hafter⟩

theorem AllMeet.join {earlier later : List V} {v : V}
    (hbefore : AllMeet d before earlier) (hp : Prog.Meets d p (fun _ _ => True) v) (hafter : AllMeet d after later) :
    AllMeet d (before ++ p :: after) (earlier ++ v :: later) := by
  induction hbefore with
  | nil => exact List.Forall₂.cons hp hafter
  | cons hq _ ih => exact List.Forall₂.cons hq ih

variable {c : Config E R W}

/-- **Invariants of a run.** The views of the programs fit the world in every state that is reached. -/
theorem Reaches.invariant (hkeeps : Keeps m Cond d idle Inv) (hstart : Inv w₀ [])
    (hprog : ∀ p, Starts p → Prog.Meets d p (fun _ _ => True) idle)
    (h : Reaches m Starts Cond w₀ c) : ∃ views, Inv c.world views ∧ AllMeet d c.threads views := by
  induction h with
  | start => exact ⟨[], hstart, List.Forall₂.nil⟩
  | step h hcond hstep ih =>
    obtain ⟨views, hinv, hall⟩ := ih
    cases hstep with
    | spawn hp => exact ⟨idle :: views, hkeeps.spawn hinv, List.Forall₂.cons (hprog _ hp) hall⟩
    | act hanswer =>
      obtain ⟨earlier, v, later, rfl, hbefore, ⟨hcan, hnext⟩, hafter⟩ := hall.split
      obtain ⟨v', hv', hinv'⟩ := hkeeps.act hinv hcan hanswer hcond
      exact ⟨_, hinv', hbefore.join (hnext _ v' hv') hafter⟩
    | crash => exact ⟨[], hkeeps.crash hinv hcond, List.Forall₂.nil⟩

theorem Reaches.can (hkeeps : Keeps m Cond d idle Inv) (hstart : Inv w₀ [])
    (hprog : ∀ p, Starts p → Prog.Meets d p (fun _ _ => True) idle) {c c' : Config E R W} {e : E} {reply : R e}
    (h : Reaches m Starts Cond w₀ c) (hstep : Step m Starts c (.act e reply) c') :
    ∃ before v after, Inv c.world (before ++ v :: after) ∧ d.Can v e := by
  obtain ⟨views, hinv, hall⟩ := h.invariant hkeeps hstart hprog
  cases hstep with
  | act hanswer =>
    obtain ⟨earlier, v, later, rfl, -, ⟨hcan, -⟩, -⟩ := AllMeet.split hall
    exact ⟨earlier, v, later, hinv, hcan⟩

theorem Reaches.alone {w : W} {e : E} {next : R e → Prog E R Unit}
    (h : Reaches m Starts Cond w₀ ⟨w, [.act e next]⟩) (reply : R e) (hanswer : m.Answers w e reply)
    (hcond : Cond w (.act e reply)) : Reaches m Starts Cond w₀ ⟨m.after w e reply, [next reply]⟩ :=
  h.step hcond (@Step.act E R W m Starts w [] [] e next reply hanswer)

theorem Reaches.lastStep {w : W} {e : E} {next : R e → Prog E R Unit}
    (h : Reaches m Starts Cond w₀ ⟨w, [.act e next]⟩) (reply : R e) (hanswer : m.Answers w e reply) :
    ∃ c c', Reaches m Starts Cond w₀ c ∧ Step m Starts c (.act e reply) c' ∧ c.world = w ∧
      c'.world = m.after w e reply :=
  ⟨_, _, h, @Step.act E R W m Starts w [] [] e next reply hanswer, rfl, rfl⟩

theorem Reaches.spawned (h : Reaches m Starts Cond w₀ c) (hp : Starts p)
    (hcond : Cond c.world .spawn) : Reaches m Starts Cond w₀ ⟨c.world, p :: c.threads⟩ :=
  h.step hcond (Step.spawn hp)

theorem Reaches.crashed (h : Reaches m Starts Cond w₀ c) (hcond : Cond c.world .crash) :
    Reaches m Starts Cond w₀ ⟨m.crash c.world, []⟩ :=
  h.step hcond Step.crash

end Threads

end ClawWorks
