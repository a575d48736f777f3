import Mathlib.Data.List.Basic

/-!
# Peeling layers

A value may be a wrapper around another value of the same kind, and looking for one layer (`Unwrap`) finds none, the
value inside, or a wrapper whose inside cannot be told.
-/

namespace Peel

variable {ω α : Type*}

/-- What looking for one layer finds. -/
inductive Unwrap (ω α : Type*)
  | notWrapper
  | blocked (wrapper : ω)
  | unwrapped (wrapper : ω) (inner : α)
  deriving DecidableEq

/-- A layer: its wrapper, and the value it is the outside of. -/
structure Layer (ω α : Type*) where
  wrapper : ω
  outer : α

/-- Uses of a wrapper that fail the test are blocked. -/
def restrict (test : ω → α → Bool) (unwrap : α → Unwrap ω α) (a : α) : Unwrap ω α :=
  match unwrap a with
  | .notWrapper => .notWrapper
  | .blocked wrapper => .blocked wrapper
  | .unwrapped wrapper inner => if test wrapper a then .unwrapped wrapper inner else .blocked wrapper

/-- A second kind of layer is looked for where the first is not found. -/
def orElse (unwrap other : α → Unwrap ω α) (a : α) : Unwrap ω α :=
  match unwrap a with
  | .notWrapper => other a
  | .blocked wrapper => .blocked wrapper
  | .unwrapped wrapper inner => .unwrapped wrapper inner

section Unwrap

variable {test : ω → α → Bool} {unwrap other : α → Unwrap ω α} {a b : α} {w : ω}

theorem restrict_eq_notWrapper_iff : restrict test unwrap a = .notWrapper ↔ unwrap a = .notWrapper := by
  unfold restrict
  split <;> rename_i h <;> simp only [h]
  split <;> simp

theorem restrict_eq_unwrapped_iff :
    restrict test unwrap a = .unwrapped w b ↔ unwrap a = .unwrapped w b ∧ test w a = true := by
  unfold restrict
  split <;> rename_i h <;> simp only [h]
  · simp
  · simp
  · split
    · rename_i htest
      constructor
      · intro heq
        cases heq
        exact ⟨rfl, htest⟩
      · exact fun heq => heq.1
    · rename_i htest
      simp only [reduceCtorEq, Unwrap.unwrapped.injEq, false_iff, not_and]
      rintro ⟨rfl, rfl⟩
      exact htest

theorem orElse_of_notWrapper (h : unwrap a = .notWrapper) : orElse unwrap other a = other a := by
  simp only [orElse, h]

theorem orElse_of_wrapper (h : unwrap a ≠ .notWrapper) : orElse unwrap other a = unwrap a := by
  unfold orElse
  split <;> rename_i heq
  · exact absurd heq h
  · exact heq.symm
  · exact heq.symm

theorem orElse_eq_notWrapper_iff :
    orElse unwrap other a = .notWrapper ↔ unwrap a = .notWrapper ∧ other a = .notWrapper := by
  by_cases h : unwrap a = .notWrapper
  · rw [orElse_of_notWrapper h]
    simp [h]
  · rw [orElse_of_wrapper h]
    simp [h]

theorem orElse_eq_unwrapped_iff : orElse unwrap other a = .unwrapped w b ↔
    unwrap a = .unwrapped w b ∨ unwrap a = .notWrapper ∧ other a = .unwrapped w b := by
  by_cases h : unwrap a = .notWrapper
  · rw [orElse_of_notWrapper h]
    simp [h]
  · rw [orElse_of_wrapper h]
    simp [h]

end Unwrap

/-! ## The way inwards -/

/-- The layers from a value to one inside it, outermost first. -/
inductive Reaches (unwrap : α → Unwrap ω α) : List (Layer ω α) → α → α → Prop
  | here (a : α) : Reaches unwrap [] a a
  | layer {w : ω} {a b c : α} {layers : List (Layer ω α)} :
      unwrap a = .unwrapped w b → Reaches unwrap layers b c → Reaches unwrap (⟨w, a⟩ :: layers) a c

/-- The layers from a value to what no wrapper is left around. -/
structure Peels (unwrap : α → Unwrap ω α) (layers : List (Layer ω α)) (a b : α) : Prop where
  reaches : Reaches unwrap layers a b
  ends : unwrap b = .notWrapper

/-- The way does not go on: the next wrapper is blocked, or is one more than the limit allows. -/
def Stuck (unwrap : α → Unwrap ω α) (limit : Nat) (layers : List (Layer ω α)) (b : α) : Prop :=
  (∃ w, unwrap b = .blocked w) ∨ limit ≤ layers.length ∧ unwrap b ≠ .notWrapper

section Reaches

variable {unwrap other : α → Unwrap ω α} {test : ω → α → Bool} {layers rest : List (Layer ω α)} {a b c : α} {w : ω}

theorem Reaches.trans (h : Reaches unwrap layers a b) (hrest : Reaches unwrap rest b c) :
    Reaches unwrap (layers ++ rest) a c := by
  induction h with
  | here => exact hrest
  | layer hstep _ ih => exact .layer hstep (ih hrest)

theorem Reaches.eq_of_nil (h : Reaches unwrap [] a b) : a = b := by
  cases h
  rfl

theorem Reaches.snoc (h : Reaches unwrap layers a b) (hstep : unwrap b = .unwrapped w c) :
    Reaches unwrap (layers ++ [⟨w, b⟩]) a c :=
  h.trans (.layer hstep (.here c))

theorem Reaches.congr (h : Reaches unwrap layers a b)
    (hsame : ∀ layer ∈ layers, other layer.outer = unwrap layer.outer) : Reaches other layers a b := by
  induction h with
  | here a => exact .here a
  | layer hstep _ ih =>
    refine .layer ((hsame _ List.mem_cons_self).trans hstep) (ih ?_)
    exact fun layer hlayer => hsame layer (List.mem_cons_of_mem _ hlayer)

theorem Reaches.layer_unwrapped (h : Reaches unwrap layers a b) :
    ∀ layer ∈ layers, ∃ inner, unwrap layer.outer = .unwrapped layer.wrapper inner := by
  induction h with
  | here => exact fun _ hlayer => nomatch hlayer
  | layer hstep _ ih =>
    intro layer hlayer
    rcases List.mem_cons.mp hlayer with rfl | hrest
    · exact ⟨_, hstep⟩
    · exact ih layer hrest

theorem Reaches.related {R : α → α → Prop} (hrefl : ∀ a, R a a) (htrans : ∀ {a b c}, R a b → R b c → R a c)
    (hstep : ∀ {a b w}, unwrap a = .unwrapped w b → R b a) (h : Reaches unwrap layers a b) : R b a := by
  induction h with
  | here a => exact hrefl a
  | layer hunwrap _ ih => exact htrans ih (hstep hunwrap)

theorem Reaches.orElse (h : Reaches unwrap layers a b) (other : α → Unwrap ω α) :
    Reaches (orElse unwrap other) layers a b := by
  refine h.congr fun layer hlayer => orElse_of_wrapper ?_
  obtain ⟨inner, hinner⟩ := h.layer_unwrapped layer hlayer
  rw [hinner]
  exact nofun

theorem Reaches.split {way : List (Layer ω α)} (h : Reaches unwrap layers a b) (hway : Peels unwrap way a c) :
    ∃ rest, way = layers ++ rest ∧ Peels unwrap rest b c := by
  induction h generalizing way with
  | here a => exact ⟨way, rfl, hway⟩
  | layer hstep _ ih =>
    obtain ⟨hreaches, hends⟩ := hway
    cases hreaches with
    | here =>
      rw [hstep] at hends
      cases hends
    | layer hfirst hreaches =>
      obtain ⟨rfl, rfl⟩ := Unwrap.unwrapped.inj (hstep.symm.trans hfirst)
      obtain ⟨rest, rfl, hrest⟩ := ih ⟨hreaches, hends⟩
      exact ⟨rest, rfl, hrest⟩

theorem Reaches.follow_or_blocked (h : Reaches unwrap layers a b)
    (hsame : ∀ layer ∈ layers, other layer.outer = unwrap layer.outer ∨ ∃ w, other layer.outer = .blocked w) :
    Reaches other layers a b ∨ ∃ before stuck w, Reaches other before a stuck ∧ other stuck = .blocked w := by
  induction h with
  | here a => exact .inl (.here a)
  | layer hstep _ ih =>
    obtain ⟨hfirst, hrest⟩ := List.forall_mem_cons.mp hsame
    rcases hfirst with hequal | ⟨w, hblocked⟩
    · rcases ih hrest with hreaches | ⟨before, stuck, w, hreaches, hblocked⟩
      · exact .inl (.layer (hequal.trans hstep) hreaches)
      · exact .inr ⟨_, stuck, w, .layer (hequal.trans hstep) hreaches, hblocked⟩
    · exact .inr ⟨[], _, w, .here _, hblocked⟩

theorem Peels.of_notWrapper (h : unwrap a = .notWrapper) : Peels unwrap [] a a := ⟨.here a, h⟩

theorem Peels.eq_of_notWrapper (h : Peels unwrap layers a b) (ha : unwrap a = .notWrapper) : layers = [] ∧ b = a := by
  obtain ⟨hreaches, -⟩ := h
  cases hreaches with
  | here => exact ⟨rfl, rfl⟩
  | layer hstep _ => cases ha.symm.trans hstep

theorem Peels.unique (h : Peels unwrap layers a b) (h' : Peels unwrap rest a c) : layers = rest ∧ b = c := by
  obtain ⟨more, rfl, hmore⟩ := h.reaches.split h'
  obtain ⟨rfl, rfl⟩ := hmore.eq_of_notWrapper h.ends
  exact ⟨(List.append_nil layers).symm, rfl⟩

theorem Reaches.not_peels {limit : Nat} {way : List (Layer ω α)} (h : Reaches unwrap layers a b)
    (hstuck : Stuck unwrap limit layers b) (hway : Peels unwrap way a c) : limit < way.length := by
  obtain ⟨rest, rfl, hreaches, hends⟩ := h.split hway
  cases hreaches with
  | here =>
    rcases hstuck with ⟨w, hblocked⟩ | ⟨-, hwrapper⟩
    · cases hends.symm.trans hblocked
    · exact absurd hends hwrapper
  | layer hstep _ =>
    rcases hstuck with ⟨w, hblocked⟩ | ⟨hlimit, -⟩
    · cases hblocked.symm.trans hstep
    · rw [List.length_append, List.length_cons]
      omega

end Reaches

end Peel
