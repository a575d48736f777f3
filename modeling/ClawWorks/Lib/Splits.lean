import Mathlib.Data.List.Induction
import Mathlib.Data.List.Nodup

/-!
# Where an entry stands in a list

- `concat_eq_append_cons_iff`: an entry of a log with one more event at its end is that event, or stands in the old
  log;
- the prefixes and suffixes of a list without repetitions: `Nodup.mem_and_not_mem_drop_iff`;
- `Nodup.pairwise_idxOf`: a selection of the items of such a list keeps their order.
-/

namespace List

open List

variable {α : Type*}

theorem concat_eq_append_cons_iff {log before after : List α} {e a : α} : log ++ [e] = before ++ a :: after ↔
      (log = before ∧ e = a ∧ after = []) ∨ ∃ rest, after = rest ++ [e] ∧ log = before ++ a :: rest := by
  constructor
  · intro h
    rcases eq_nil_or_concat after with rfl | ⟨rest, last, rfl⟩
    · obtain ⟨hlog, hlast⟩ := append_inj' h rfl
      exact Or.inl ⟨hlog, singleton_inj.mp hlast, rfl⟩
    · rw [concat_eq_append, ← cons_append, ← append_assoc] at h
      obtain ⟨hlog, hlast⟩ := append_inj' h rfl
      exact Or.inr ⟨rest, by rw [concat_eq_append, singleton_inj.mp hlast], hlog⟩
  · rintro (⟨rfl, rfl, rfl⟩ | ⟨rest, rfl, rfl⟩)
    · rfl
    · simp

variable {items : List α} {i k : Nat} {a b : α}

theorem mem_take_succ_iff (hi : items[i]? = some b) : a ∈ items.take (i + 1) ↔ a = b ∨ a ∈ items.take i := by
  rw [take_add_one, hi, Option.toList_some, mem_append, mem_singleton, or_comm]

theorem Nodup.not_mem_take (hn : items.Nodup) (hi : items[i]? = some a) : a ∉ items.take i := by
  intro hmem
  obtain ⟨j, hj, hget⟩ := getElem_of_mem hmem
  obtain ⟨hlt, rfl⟩ := getElem?_eq_some_iff.mp hi
  rw [length_take] at hj
  rw [getElem_take] at hget
  exact absurd (hn.getElem_inj_iff.mp hget) (by omega)

theorem Nodup.mem_and_not_mem_drop_iff (hn : items.Nodup) : (a ∈ items ∧ a ∉ items.drop k) ↔ a ∈ items.take k := by
  have hsplit := take_append_drop k items
  constructor
  · rintro ⟨hmem, hdrop⟩
    rw [← hsplit, mem_append] at hmem
    exact hmem.resolve_right hdrop
  · intro htake
    refine ⟨mem_of_mem_take htake, fun hdrop => ?_⟩
    rw [← hsplit, nodup_append] at hn
    exact hn.2.2 a htake a hdrop rfl

theorem Nodup.mem_take_and_not_mem_drop_iff (hn : items.Nodup) (hk : k ≤ i) :
    (a ∈ items.take i ∧ a ∉ items.drop k) ↔ a ∈ items.take k := by
  constructor
  · rintro ⟨htake, hdrop⟩
    exact hn.mem_and_not_mem_drop_iff.mp ⟨mem_of_mem_take htake, hdrop⟩
  · intro htake
    have hle : items.take k <+: items.take i := take_prefix_take_left hk
    exact ⟨hle.subset htake, (hn.mem_and_not_mem_drop_iff.mpr htake).2⟩

theorem Nodup.pairwise_idxOf [BEq α] [LawfulBEq α] {order : List α} (hn : order.Nodup) (hsub : items.Sublist order) :
    items.Pairwise fun a b => order.idxOf a < order.idxOf b := by
  refine List.Pairwise.sublist hsub (pairwise_iff_getElem.mpr fun i j hi hj hij => ?_)
  rwa [hn.idxOf_getElem i hi, hn.idxOf_getElem j hj]

theorem Forall₂.exists_right {β : Type*} {R : α → β → Prop} {l : List α} {l' : List β} (h : Forall₂ R l l') {a : α}
    (ha : a ∈ l) : ∃ b ∈ l', R a b := by
  induction h with
  | nil => cases ha
  | cons hab _ ih =>
    rcases mem_cons.mp ha with rfl | hin
    · exact ⟨_, mem_cons_self, hab⟩
    · obtain ⟨b, hb, hR⟩ := ih hin
      exact ⟨b, mem_cons_of_mem _ hb, hR⟩

theorem Forall₂.exists_left {β : Type*} {R : α → β → Prop} {l : List α} {l' : List β} (h : Forall₂ R l l') {b : β}
    (hb : b ∈ l') : ∃ a ∈ l, R a b :=
  h.flip.exists_right hb

theorem append_cons_inj_of_first {x y z w : List α} {a : α} (hx : a ∉ x) (hy : a ∉ y) (h : x ++ a :: z = y ++ a :: w) :
    x = y ∧ z = w := by
  induction x generalizing y with
  | nil =>
    cases y with
    | nil => exact ⟨rfl, (cons.inj h).2⟩
    | cons b y => exact absurd ((cons.inj h).1 ▸ mem_cons_self) hy
  | cons b x ih =>
    cases y with
    | nil => exact absurd ((cons.inj h).1 ▸ mem_cons_self) hx
    | cons c y =>
      obtain ⟨rfl, hrest⟩ := cons.inj h
      obtain ⟨rfl, rfl⟩ := ih (fun ha => hx (mem_cons_of_mem _ ha)) (fun ha => hy (mem_cons_of_mem _ ha)) hrest
      exact ⟨rfl, rfl⟩

end List
