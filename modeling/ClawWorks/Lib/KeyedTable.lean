import Mathlib.Data.List.Nodup

/-!
# Tables with a primary key

A table is its rows in insertion order, with the uniqueness of the key as a field: no operation can build a table with
two rows under one key.

Row order is not observable: every query that lists rows sorts them.

- `mem_insert`, `mem_updateWhere`, `mem_deleteWhere`: the rows afterwards;
- `get?_eq_some_iff`: a lookup by key finds the row under it; `get?_insert`, `get?_upsert`, `get?_deleteWhere`: what a
  lookup finds afterwards;
- `get?_foldl`: a script of operations that each touch the row under one key.
-/

/-- Rows no two of which share a key. -/
@[ext] structure KeyedTable {κ ρ : Type*} (key : ρ → κ) where
  rows : List ρ
  nodup : (rows.map key).Nodup

namespace KeyedTable

open List

variable {κ ρ : Type*} {key : ρ → κ}

instance : Membership ρ (KeyedTable key) :=
  ⟨fun t r => r ∈ t.rows⟩

instance [DecidableEq ρ] (r : ρ) (t : KeyedTable key) : Decidable (r ∈ t) :=
  inferInstanceAs (Decidable (r ∈ t.rows))

/-- The table without rows. -/
def empty : KeyedTable key :=
  ⟨[], nodup_nil⟩

@[simp] theorem not_mem_empty (r : ρ) : r ∉ (empty : KeyedTable key) := by
  rintro (h : r ∈ ([] : List ρ))
  cases h

variable {t : KeyedTable key}

theorem eq_of_key {a b : ρ} (ha : a ∈ t) (hb : b ∈ t) (h : key a = key b) : a = b := inj_on_of_nodup_map t.nodup ha hb h

/-- `DELETE … WHERE p`. -/
def deleteWhere (t : KeyedTable key) (p : ρ → Bool) : KeyedTable key where
  rows := t.rows.filter (!p ·)
  nodup := t.nodup.sublist ((filter_sublist).map key)

variable {r : ρ}

theorem mem_deleteWhere {p : ρ → Bool} : r ∈ t.deleteWhere p ↔ r ∈ t ∧ p r = false := by
  refine mem_filter.trans ?_
  simp only [Bool.not_eq_true']
  rfl

/-- `UPDATE … WHERE p`, by a function that keeps the key. -/
def updateWhere (t : KeyedTable key) (p : ρ → Bool) (f : ρ → ρ) (hf : ∀ r, key (f r) = key r) : KeyedTable key where
  rows := t.rows.map fun r => if p r then f r else r
  nodup := by
    have hkeys : (t.rows.map fun r => if p r then f r else r).map key = t.rows.map key := by
      rw [map_map]
      refine map_congr_left fun r _ => ?_
      simp only [Function.comp_apply]
      split
      · exact hf r
      · rfl
    rw [hkeys]
    exact t.nodup

theorem mem_updateWhere {p : ρ → Bool} {f : ρ → ρ} {hf : ∀ r, key (f r) = key r} :
    r ∈ t.updateWhere p f hf ↔ ∃ q ∈ t, (if p q then f q else q) = r :=
  mem_map

/-! ## Lookup and insertion -/

variable [DecidableEq κ]

/-- The row under a key. -/
def get? (t : KeyedTable key) (k : κ) : Option ρ :=
  t.rows.find? (key · = k)

theorem get?_eq_some_iff {k : κ} : t.get? k = some r ↔ r ∈ t ∧ key r = k := by
  constructor
  · intro h
    exact ⟨mem_of_find?_eq_some h, by simpa using find?_some h⟩
  · rintro ⟨hr, rfl⟩
    obtain ⟨q, hq⟩ := Option.isSome_iff_exists.mp
      (find?_isSome.mpr ⟨r, hr, decide_eq_true rfl⟩ : (t.rows.find? (key · = key r)).isSome)
    have hkey : key q = key r := by simpa using find?_some hq
    have hqr : q = r := eq_of_key (mem_of_find?_eq_some hq : q ∈ t) hr hkey
    rw [get?, hq, hqr]

theorem get?_eq_none_iff {k : κ} : t.get? k = none ↔ ∀ r ∈ t, key r ≠ k := by
  refine find?_eq_none.trans ?_
  simp only [decide_eq_true_eq]
  rfl

/-- `INSERT … ON CONFLICT DO NOTHING`. -/
def insert (t : KeyedTable key) (row : ρ) : KeyedTable key :=
  if h : key row ∈ t.rows.map key then t
  else ⟨t.rows ++ [row], by
    rw [map_append, nodup_append]
    refine ⟨t.nodup, by simp, fun a ha b hb => ?_⟩
    rw [map_singleton, mem_singleton] at hb
    exact fun e => h (hb ▸ e ▸ ha)⟩

theorem mem_insert {row r : ρ} : r ∈ t.insert row ↔ r ∈ t ∨ (r = row ∧ ∀ q ∈ t, key q ≠ key row) := by
  unfold insert
  split
  · rename_i h
    obtain ⟨q, hq, hkey⟩ := mem_map.mp h
    exact ⟨.inl, fun hr => hr.resolve_right fun hnew => hnew.2 q hq hkey⟩
  · rename_i h
    have hnew : ∀ q ∈ t, key q ≠ key row := fun q hq hkey => h (mem_map.mpr ⟨q, hq, hkey⟩)
    refine mem_append.trans ?_
    rw [mem_singleton]
    exact or_congr Iff.rfl ⟨fun hr => ⟨hr, hnew⟩, And.left⟩

/-- `INSERT … ON CONFLICT DO UPDATE`: the row takes the place of the one under its key. -/
def upsert (t : KeyedTable key) (row : ρ) : KeyedTable key :=
  (t.deleteWhere (key · = key row)).insert row

/-- The row takes the place of the one under its key, or goes to the end. -/
def put (t : KeyedTable key) (row : ρ) : KeyedTable key :=
  (t.updateWhere (key · = key row) (fun r => if key r = key row then row else r) (by
    intro r
    split
    · rename_i h
      exact h.symm
    · rfl)).insert row

/-! ## Lookups afterwards -/

theorem mem_iff_get? : r ∈ t ↔ t.get? (key r) = some r := by
  rw [get?_eq_some_iff]
  exact ⟨fun h => ⟨h, rfl⟩, And.left⟩

theorem get?_deleteWhere (t : KeyedTable key) (p : ρ → Bool) (k : κ) :
    (t.deleteWhere p).get? k = (t.get? k).filter (!p ·) := by
  refine Option.ext fun r => ?_
  simp only [Option.filter_eq_some_iff, get?_eq_some_iff, mem_deleteWhere, Bool.not_eq_true']
  tauto

theorem get?_insert (t : KeyedTable key) (row : ρ) (k : κ) :
    (t.insert row).get? k = if key row = k then some ((t.get? k).getD row) else t.get? k := by
  refine Option.ext fun r => ?_
  rw [get?_eq_some_iff, mem_insert]
  split_ifs with hk
  · subst hk
    cases hrow : t.get? (key row) with
    | none =>
      have hfree := get?_eq_none_iff.mp hrow
      constructor
      · rintro ⟨hr | ⟨rfl, -⟩, hkey⟩
        · exact absurd hkey (hfree r hr)
        · rfl
      · intro h
        obtain rfl : row = r := Option.some.inj h
        exact ⟨.inr ⟨rfl, hfree⟩, rfl⟩
    | some q =>
      obtain ⟨hq, hkey⟩ := get?_eq_some_iff.mp hrow
      constructor
      · rintro ⟨hr | ⟨-, hfree⟩, hr'⟩
        · rw [Option.getD_some, eq_of_key hr hq (hr'.trans hkey.symm)]
        · exact absurd hkey (hfree q hq)
      · intro h
        obtain rfl : q = r := Option.some.inj h
        exact ⟨.inl hq, hkey⟩
  · rw [get?_eq_some_iff]
    constructor
    · rintro ⟨hr | ⟨rfl, -⟩, hkey⟩
      · exact ⟨hr, hkey⟩
      · exact absurd hkey hk
    · rintro ⟨hr, hkey⟩
      exact ⟨.inl hr, hkey⟩

theorem exists_get? {row : κ → ρ} (hrow : ∀ k, key (row k) = k) (keys : List κ) :
    ∃ t : KeyedTable key, ∀ k, t.get? k = if k ∈ keys then some (row k) else none := by
  induction keys with
  | nil => exact ⟨empty, fun k => rfl⟩
  | cons first keys ih =>
    obtain ⟨t, ht⟩ := ih
    refine ⟨t.insert (row first), fun k => ?_⟩
    rw [get?_insert, ht, hrow]
    by_cases hk : first = k
    · subst hk
      by_cases hin : first ∈ keys <;> simp [hin]
    · simp [hk, Ne.symm hk]

theorem get?_upsert (t : KeyedTable key) (row : ρ) (k : κ) :
    (t.upsert row).get? k = if key row = k then some row else t.get? k := by
  unfold upsert
  rw [get?_insert, get?_deleteWhere]
  split_ifs with hk
  · subst hk
    cases hrow : t.get? (key row) with
    | none => rfl
    | some q => simp [Option.filter, (get?_eq_some_iff.mp hrow).2]
  · cases hrow : t.get? k with
    | none => rfl
    | some q => simp [Option.filter, (get?_eq_some_iff.mp hrow).2, Ne.symm hk]

theorem mem_put {row r : ρ} : r ∈ t.put row ↔ r = row ∨ (r ∈ t ∧ key r ≠ key row) := by
  have hupdated : ∀ q, q ∈ t.updateWhere (key · = key row) (fun r => if key r = key row then row else r)
      (by intro r; split <;> simp_all) ↔ (q = row ∧ ∃ p ∈ t, key p = key row) ∨ (q ∈ t ∧ key q ≠ key row) := by
    intro q
    rw [mem_updateWhere]
    constructor
    · rintro ⟨p, hp, rfl⟩
      by_cases hkey : key p = key row
      · exact .inl ⟨by simp [hkey], p, hp, hkey⟩
      · exact .inr (by simp [hkey, hp])
    · rintro (⟨rfl, p, hp, hkey⟩ | ⟨hq, hkey⟩)
      · exact ⟨p, hp, by simp [hkey]⟩
      · exact ⟨q, hq, by simp [hkey]⟩
  unfold put
  rw [mem_insert, hupdated]
  constructor
  · rintro ((⟨rfl, -⟩ | h) | ⟨rfl, -⟩)
    · exact .inl rfl
    · exact .inr h
    · exact .inl rfl
  · rintro (rfl | h)
    · by_cases hkey : ∃ p ∈ t, key p = key r
      · exact .inl (.inl ⟨rfl, hkey⟩)
      · refine .inr ⟨rfl, fun q hq => ?_⟩
        rcases (hupdated q).mp hq with ⟨-, hrow⟩ | ⟨-, hne⟩
        · exact absurd hrow hkey
        · exact hne
    · exact .inl (.inr h)

theorem get?_deleteKey (t : KeyedTable key) (k k' : κ) :
    (t.deleteWhere (key · = k)).get? k' = if k = k' then none else t.get? k' := by
  rw [get?_deleteWhere]
  cases hrow : t.get? k' with
  | none => simp
  | some q => by_cases hk : k = k' <;> simp [Option.filter, (get?_eq_some_iff.mp hrow).2, hk, eq_comm]

section Script

variable {α : Type*}

/-- Each step touches the row under one key, and what it leaves there depends on that row alone. -/
def ActsAt (step : KeyedTable key → α → KeyedTable key) (slot : α → κ) (act : α → Option ρ → Option ρ) : Prop :=
  ∀ t a k, (step t a).get? k = if slot a = k then act a (t.get? k) else t.get? k

variable {step : KeyedTable key → α → KeyedTable key} {slot : α → κ} {act : α → Option ρ → Option ρ}

theorem get?_foldl (h : ActsAt step slot act) (script : List α) (t : KeyedTable key) (k : κ) :
    (script.foldl step t).get? k = (script.filter (slot · = k)).foldl (fun row a => act a row) (t.get? k) := by
  induction script generalizing t with
  | nil => rfl
  | cons a script ih =>
    rw [foldl_cons, ih, h t a k]
    by_cases hk : slot a = k <;> simp [hk]

theorem get?_foldl_of_forall_ne (h : ActsAt step slot act) {script : List α} {k : κ} (hk : ∀ a ∈ script, slot a ≠ k)
    (t : KeyedTable key) : (script.foldl step t).get? k = t.get? k := by
  have hnone : script.filter (slot · = k) = [] := by
    rw [filter_eq_nil_iff]
    intro a ha
    simpa using hk a ha
  rw [get?_foldl h, hnone, foldl_nil]

theorem get?_foldl_of_nodup (h : ActsAt step slot act) {script : List α} (hnodup : (script.map slot).Nodup) {a : α}
    (ha : a ∈ script) (t : KeyedTable key) : (script.foldl step t).get? (slot a) = act a (t.get? (slot a)) := by
  induction script generalizing t with
  | nil => cases ha
  | cons b script ih =>
    rw [map_cons, nodup_cons] at hnodup
    rw [foldl_cons]
    rcases mem_cons.mp ha with rfl | hin
    · have hrest : ∀ c ∈ script, slot c ≠ slot a := fun c hc e => hnodup.1 (e ▸ mem_map_of_mem hc)
      rw [get?_foldl_of_forall_ne h hrest, h t a, if_pos rfl]
    · have hne : slot b ≠ slot a := fun e => hnodup.1 (e ▸ mem_map_of_mem hin)
      rw [ih hnodup.2 hin, h t b, if_neg hne]

end Script

end KeyedTable
