import Mathlib.Order.Basic

/-!
# Programs that keep what they did before they failed

A program over a state gives an outcome and the state it leaves; where it fails, what it wrote stays written.

- `Mutation.Ensures p s ok failed`: from `s` the program `p` gives a value and a state with `ok`, or fails in a state
  with `failed`;
- the rules: `ensures_bind`, `ensures_recover` (an error that is caught), `ensures_forEach` and `ensures_foldlM` (loops,
  by an invariant).
-/

/-- A program over a state that may fail. -/
def Mutation (σ ε α : Type) : Type :=
  σ → Except ε α × σ

namespace Mutation

variable {σ ε α β : Type}

instance : Monad (Mutation σ ε) where
  pure a := fun s => (.ok a, s)
  bind p next := fun s =>
    match p s with
    | (.ok a, s') => next a s'
    | (.error e, s') => (.error e, s')

theorem bind_eq_of_ok {p : Mutation σ ε α} {s s' : σ} {a : α} (h : p s = (.ok a, s')) (next : α → Mutation σ ε β) :
    (p >>= next) s = next a s' := by
  show (match p s with
    | (.ok a, s') => next a s'
    | (.error e, s') => (.error e, s')) = _
  rw [h]

/-- Fails and writes nothing. -/
def fail (e : ε) : Mutation σ ε α :=
  fun s => (.error e, s)

/-- A computation that does not look at the state. -/
def lift (result : Except ε α) : Mutation σ ε α :=
  fun s => (result, s)

instance : MonadLift (Except ε) (Mutation σ ε) :=
  ⟨lift⟩

/-- What a function of the state says. -/
def view (f : σ → α) : Mutation σ ε α :=
  fun s => (.ok (f s), s)

def change (f : σ → σ) : Mutation σ ε Unit :=
  fun s => (.ok (), f s)

/-- `try … catch`. -/
def recover (body : Mutation σ ε α) (handler : ε → Mutation σ ε α) : Mutation σ ε α :=
  fun s =>
    match body s with
    | (.ok a, s') => (.ok a, s')
    | (.error e, s') => handler e s'

/-- A loop without a result. -/
def forEach (body : α → Mutation σ ε Unit) : List α → Mutation σ ε Unit
  | [] => pure ()
  | item :: items => do
    body item
    forEach body items

def Ensures (p : Mutation σ ε α) (s : σ) (ok : α → σ → Prop) (failed : σ → Prop) : Prop :=
  match p s with
  | (.ok a, s') => ok a s'
  | (.error _, s') => failed s'

variable {p : Mutation σ ε α} {s : σ} {ok : α → σ → Prop} {failed : σ → Prop}

theorem ensures_iff : p.Ensures s ok failed ↔
      (∀ a s', p s = (.ok a, s') → ok a s') ∧ ∀ e s', p s = (.error e, s') → failed s' := by
  unfold Ensures
  split
  · rename_i a s' h
    constructor
    · intro hok
      refine ⟨fun b t hb => ?_, fun e t he => ?_⟩
      · obtain ⟨hab, rfl⟩ := Prod.mk.inj (h.symm.trans hb)
        obtain rfl := Except.ok.inj hab
        exact hok
      · rw [h] at he
        cases he
    · exact fun hboth => hboth.1 a s' h
  · rename_i e s' h
    constructor
    · intro hfailed
      refine ⟨fun b t hb => ?_, fun e t he => ?_⟩
      · rw [h] at hb
        cases hb
      · obtain ⟨-, rfl⟩ := Prod.mk.inj (h.symm.trans he)
        exact hfailed
    · exact fun hboth => hboth.2 e s' h

variable {ok' : α → σ → Prop} {failed' : σ → Prop}

theorem Ensures.mono (h : p.Ensures s ok failed)
    (hok : ∀ a s', ok a s' → ok' a s') (hfailed : ∀ s', failed s' → failed' s') : p.Ensures s ok' failed' := by
  unfold Ensures at h ⊢
  split
  · rename_i a s' hp
    rw [hp] at h
    exact hok a s' h
  · rename_i e s' hp
    rw [hp] at h
    exact hfailed s' h

theorem Ensures.and (h : p.Ensures s ok failed) (h' : p.Ensures s ok' failed') :
    p.Ensures s (fun a s' => ok a s' ∧ ok' a s') (fun s' => failed s' ∧ failed' s') := by
  unfold Ensures at h h' ⊢
  split
  · rename_i a s' hp
    rw [hp] at h h'
    exact ⟨h, h'⟩
  · rename_i e s' hp
    rw [hp] at h h'
    exact ⟨h, h'⟩

theorem Ensures.after {after : σ → Prop} (h : p.Ensures s (fun _ => after) after) : after (p s).2 := by
  unfold Ensures at h
  split at h
  · rename_i a s' hp
    rw [hp]
    exact h
  · rename_i e s' hp
    rw [hp]
    exact h

theorem ensures_of_after {P : σ → Prop} (h : P (p s).2) : p.Ensures s (fun _ => P) P := by
  unfold Ensures
  split
  · rename_i a s' hp
    rwa [hp] at h
  · rename_i e s' hp
    rwa [hp] at h

/-! ## Rules

What a program ensures is what its parts ensure: the rules below take a program without loops apart.
-/

@[simp] theorem ensures_pure_iff {a : α} : (pure a : Mutation σ ε α).Ensures s ok failed ↔ ok a s := Iff.rfl

@[simp] theorem ensures_fail_iff {e : ε} : (fail e : Mutation σ ε α).Ensures s ok failed ↔ failed s := Iff.rfl

@[simp] theorem ensures_view_iff {f : σ → α} : (view f : Mutation σ ε α).Ensures s ok failed ↔ ok (f s) s := Iff.rfl

@[simp] theorem ensures_change_iff {f : σ → σ} {ok : Unit → σ → Prop} :
    (change f : Mutation σ ε Unit).Ensures s ok failed ↔ ok () (f s) := Iff.rfl

variable {result : Except ε α}

@[simp] theorem ensures_lift_iff : (lift result : Mutation σ ε α).Ensures s ok failed ↔
      (∀ a, result = .ok a → ok a s) ∧ ∀ e, result = .error e → failed s := by
  unfold Ensures lift
  cases result with
  | ok a => exact ⟨fun h => ⟨fun _ hb => Except.ok.inj hb ▸ h, nofun⟩, fun h => h.1 a rfl⟩
  | error e => exact ⟨fun h => ⟨nofun, fun _ _ => h⟩, fun h => h.2 e rfl⟩

@[simp] theorem ensures_monadLift_iff : (monadLift result : Mutation σ ε α).Ensures s ok failed ↔
      (∀ a, result = .ok a → ok a s) ∧ ∀ e, result = .error e → failed s :=
  ensures_lift_iff

variable {next : α → Mutation σ ε β}

@[simp] theorem ensures_bind_iff {ok : β → σ → Prop} :
    (p >>= next).Ensures s ok failed ↔ p.Ensures s (fun a s' => (next a).Ensures s' ok failed) failed := by
  show (match (match p s with
      | (.ok a, s') => next a s'
      | (.error e, s') => (.error e, s')) with
    | (.ok a, s') => ok a s'
    | (.error _, s') => failed s') ↔ _
  unfold Ensures
  cases p s with
  | mk result s' => cases result <;> exact Iff.rfl

theorem ensures_bind {Q : α → σ → Prop} {ok : β → σ → Prop}
    (h : p.Ensures s Q failed) (hnext : ∀ a s', Q a s' → (next a).Ensures s' ok failed) :
    (p >>= next).Ensures s ok failed :=
  ensures_bind_iff.mpr (h.mono hnext fun _ h => h)

theorem ensures_recover {handler : ε → Mutation σ ε α} {C : σ → Prop} (h : p.Ensures s ok C)
    (hhandler : ∀ e s', C s' → (handler e).Ensures s' ok failed) : (recover p handler).Ensures s ok failed := by
  unfold Ensures recover at *
  split at h
  · exact h
  · rename_i e s' hp
    exact hhandler e s' h

theorem ensures_forEach {body : α → Mutation σ ε Unit} {I : σ → Prop} {items : List α}
    (hbody : ∀ item ∈ items, ∀ s, I s → (body item).Ensures s (fun _ => I) failed) {s : σ} (h : I s) :
    (forEach body items).Ensures s (fun _ => I) failed := by
  induction items generalizing s with
  | nil => exact h
  | cons item items ih =>
    obtain ⟨hitem, hitems⟩ := List.forall_mem_cons.mp hbody
    exact ensures_bind (hitem s h) fun _ s' hs' => ih hitems hs'

theorem ensures_foldlM {body : β → α → Mutation σ ε β} {I : β → σ → Prop} {items : List α}
    (hbody : ∀ acc, ∀ item ∈ items, ∀ s, I acc s → (body acc item).Ensures s I failed) {acc : β} {s : σ}
    (h : I acc s) : (items.foldlM body acc).Ensures s I failed := by
  induction items generalizing acc s with
  | nil => exact h
  | cons item items ih =>
    rw [List.foldlM_cons]
    exact ensures_bind (hbody acc item List.mem_cons_self s h) fun acc' s' hs' =>
      ih (fun acc item hitem => hbody acc item (List.mem_cons_of_mem _ hitem)) hs'

end Mutation
