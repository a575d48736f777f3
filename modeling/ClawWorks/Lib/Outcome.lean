/-!
# Computations that may fail

Rules for what a computation in `Except` gives: `Except.Yields` bounds the value and the error, and composes along a
sequence (`Except.Yields.bind`); `Except.bind_eq_ok` takes a sequence that succeeded apart, and
`Except.collect_append_eq_ok`, `Except.forM_eq_ok_iff`, `Except.mapM_eq_ok_iff`, `Except.mapM_eq_ok_iff_getElem?` its
loops.
-/

namespace Except

open Except List

variable {ε α β : Type}

/-- The computation gives a value with one property, or an error with the other. -/
def Yields (result : Except ε α) (admitted : α → Prop) (excused : ε → Prop) : Prop :=
  match result with
  | .ok a => admitted a
  | .error e => excused e

variable {result : Except ε α} {admitted : α → Prop} {excused : ε → Prop}

variable {next : α → Except ε β} {admitted' : β → Prop}

theorem Yields.bind (h : result.Yields admitted excused)
    (hnext : ∀ value, admitted value → (next value).Yields admitted' excused) :
    (result >>= next).Yields admitted' excused := by
  cases result with
  | error e => exact h
  | ok a => exact hnext a h

theorem Yields.pure {value : α} (h : admitted value) : (pure value : Except ε α).Yields admitted excused := h

theorem Yields.bind_ok {value : α} (h : result = .ok value)
    (hnext : (next value).Yields admitted' excused) : (result >>= next).Yields admitted' excused := by
  rw [h]
  exact hnext

theorem Yields.bind_any (h : result.Yields (fun _ => True) excused)
    (hnext : ∀ value, (next value).Yields admitted' excused) : (result >>= next).Yields admitted' excused :=
  h.bind fun value _ => hnext value

theorem yields_iff : result.Yields admitted excused ↔
      (∀ value, result = .ok value → admitted value) ∧ ∀ e, result = .error e → excused e := by
  cases result with
  | error e => exact ⟨fun h => ⟨nofun, fun _ he => error.inj he ▸ h⟩, fun h => h.2 e rfl⟩
  | ok value => exact ⟨fun h => ⟨fun _ hvalue => ok.inj hvalue ▸ h, nofun⟩, fun h => h.1 value rfl⟩

theorem bind_eq_ok {b : β} : (result >>= next) = .ok b ↔ ∃ a, result = .ok a ∧ next a = .ok b := by
  cases result with
  | error e => exact ⟨nofun, nofun⟩
  | ok a => exact ⟨fun h => ⟨a, rfl, h⟩, fun ⟨_, hvalue, h⟩ => by cases hvalue; exact h⟩

/-! ## Loops -/

def collect (find : α → Except ε (Option β)) : List α → Except ε (List β)
  | [] => .ok []
  | item :: items => do
    let found ← find item
    let rest ← collect find items
    return found.toList ++ rest

variable {find : α → Except ε (Option β)}

variable {items : List α} {found : List β}

theorem collect_cons_eq_ok {item : α} : collect find (item :: items) = .ok found ↔
      ∃ first rest, find item = .ok first ∧ collect find items = .ok rest ∧ found = first.toList ++ rest := by
  rw [collect, bind_eq_ok]
  refine exists_congr fun first => ?_
  rw [bind_eq_ok]
  constructor
  · rintro ⟨hfirst, rest, hrest, hfound⟩
    exact ⟨rest, hfirst, hrest, (ok.inj hfound).symm⟩
  · rintro ⟨rest, hfirst, hrest, rfl⟩
    exact ⟨hfirst, rest, hrest, rfl⟩

theorem ok_of_collect (h : collect find items = .ok found) {item : α}
    (hitem : item ∈ items) : ∃ first, find item = .ok first := by
  induction items generalizing found with
  | nil => cases hitem
  | cons head items ih =>
    obtain ⟨first, rest, hfirst, hrest, -⟩ := collect_cons_eq_ok.mp h
    rcases mem_cons.mp hitem with rfl | hitem
    · exact ⟨first, hfirst⟩
    · exact ih hrest hitem

theorem exists_collect (h : ∀ item ∈ items, ∃ first, find item = .ok first) :
    ∃ found, collect find items = .ok found := by
  induction items with
  | nil => exact ⟨[], rfl⟩
  | cons item items ih =>
    obtain ⟨⟨first, hfirst⟩, hitems⟩ := forall_mem_cons.mp h
    obtain ⟨rest, hrest⟩ := ih hitems
    exact ⟨_, collect_cons_eq_ok.mpr ⟨first, rest, hfirst, hrest, rfl⟩⟩

theorem collect_map {γ : Type} {raw : γ → α} {f : γ → Option β} {items : List γ}
    (h : ∀ item ∈ items, find (raw item) = .ok (f item)) :
    collect find (items.map raw) = .ok (items.filterMap f) := by
  induction items with
  | nil => rfl
  | cons item items ih =>
    obtain ⟨hitem, hitems⟩ := forall_mem_cons.mp h
    rw [map_cons, collect_cons_eq_ok]
    refine ⟨f item, items.filterMap f, hitem, ih hitems, ?_⟩
    rw [filterMap_cons]
    cases f item <;> rfl

theorem mem_of_collect (h : collect find items = .ok found) {b : β} (hb : b ∈ found) :
    ∃ item ∈ items, find item = .ok (some b) := by
  induction items generalizing found with
  | nil =>
    obtain rfl := ok.inj h
    cases hb
  | cons item items ih =>
    obtain ⟨first, rest, hfirst, hrest, rfl⟩ := collect_cons_eq_ok.mp h
    rcases mem_append.mp hb with hmem | hmem
    · rw [Option.mem_toList] at hmem
      exact ⟨item, mem_cons_self, by rw [hfirst, hmem]⟩
    · obtain ⟨found, hfound, hitem⟩ := ih hrest hmem
      exact ⟨found, mem_cons_of_mem _ hfound, hitem⟩

theorem collect_append_eq_ok {items items' : List α} : collect find (items ++ items') = .ok found ↔
      ∃ first rest, collect find items = .ok first ∧ collect find items' = .ok rest ∧ found = first ++ rest := by
  induction items generalizing found with
  | nil =>
    constructor
    · exact fun h => ⟨[], found, rfl, h, rfl⟩
    · rintro ⟨_, rest, hfirst, hrest, rfl⟩
      cases hfirst
      exact hrest
  | cons item items ih =>
    rw [cons_append, collect_cons_eq_ok]
    constructor
    · rintro ⟨one, more, hone, hmore, rfl⟩
      obtain ⟨first, rest, hfirst, hrest, rfl⟩ := ih.mp hmore
      exact ⟨one.toList ++ first, rest, collect_cons_eq_ok.mpr ⟨one, first, hone, hfirst, rfl⟩, hrest,
        (append_assoc ..).symm⟩
    · rintro ⟨_, rest, hfirst, hrest, rfl⟩
      obtain ⟨one, more, hone, hmore, rfl⟩ := collect_cons_eq_ok.mp hfirst
      exact ⟨one, more ++ rest, hone, ih.mpr ⟨more, rest, hmore, hrest, rfl⟩, append_assoc ..⟩

theorem forM_eq_ok_iff {check : α → Except ε PUnit} {u : PUnit} :
    items.forM check = .ok u ↔ ∀ item ∈ items, check item = .ok () := by
  induction items with
  | nil => exact ⟨fun _ => nofun, fun _ => rfl⟩
  | cons item items ih =>
    rw [forM_eq_forM] at ih ⊢
    rw [forM_cons, bind_eq_ok, forall_mem_cons, ← ih]
    exact ⟨fun ⟨_, h, hrest⟩ => ⟨h, hrest⟩, fun ⟨h, hrest⟩ => ⟨(), h, hrest⟩⟩

variable {compute : α → Except ε β}

theorem mapM_eq_ok_iff {value : α → β} {admitted : α → Prop}
    {values : List β} (h : ∀ item ∈ items, ∀ b, compute item = .ok b ↔ admitted item ∧ b = value item) :
    items.mapM compute = .ok values ↔ (∀ item ∈ items, admitted item) ∧ values = items.map value := by
  induction items generalizing values with
  | nil => exact ⟨fun hvalues => ⟨nofun, (ok.inj hvalues).symm⟩, fun ⟨_, hvalues⟩ => by rw [hvalues]; rfl⟩
  | cons item items ih =>
    obtain ⟨hitem, hitems⟩ := forall_mem_cons.mp h
    rw [mapM_cons, bind_eq_ok]
    simp only [hitem, bind_eq_ok, ih hitems, forall_mem_cons, map_cons]
    constructor
    · rintro ⟨_, ⟨hadmitted, rfl⟩, _, ⟨hrest, rfl⟩, hvalues⟩
      exact ⟨⟨hadmitted, hrest⟩, (ok.inj hvalues).symm⟩
    · rintro ⟨⟨hadmitted, hrest⟩, rfl⟩
      exact ⟨_, ⟨hadmitted, rfl⟩, _, ⟨hrest, rfl⟩, rfl⟩

theorem mapM_eq_ok_iff_getElem? {values : List β} : items.mapM compute = .ok values ↔ values.length = items.length ∧
      ∀ (i : Nat) (item : α), items[i]? = some item → ∃ value, values[i]? = some value ∧ compute item = .ok value := by
  induction items generalizing values with
  | nil =>
    constructor
    · rintro ⟨⟩
      exact ⟨rfl, nofun⟩
    · exact fun h => by rw [eq_nil_of_length_eq_zero h.1]; rfl
  | cons item items ih =>
    rw [mapM_cons, bind_eq_ok]
    constructor
    · rintro ⟨first, hfirst, hloop⟩
      obtain ⟨rest, hrest, hvalues⟩ := bind_eq_ok.mp hloop
      obtain rfl := ok.inj hvalues
      obtain ⟨hlength, hall⟩ := ih.mp hrest
      refine ⟨by rw [length_cons, hlength, length_cons], fun i next hnext => ?_⟩
      cases i with
      | zero =>
        obtain rfl := Option.some.inj hnext
        exact ⟨first, rfl, hfirst⟩
      | succ i => exact hall i next hnext
    · rintro ⟨hlength, hall⟩
      obtain ⟨first, hvalue, hfirst⟩ := hall 0 item rfl
      cases values with
      | nil => cases hvalue
      | cons value values =>
        obtain rfl := Option.some.inj hvalue
        refine ⟨value, hfirst, bind_eq_ok.mpr ⟨values, ih.mpr ⟨Nat.succ.inj hlength, ?_⟩, rfl⟩⟩
        exact fun i next hnext => hall (i + 1) next hnext

theorem mapM_zipIdx_eq_ok_iff (compute : Nat → α → Except ε β) {values : List β} :
    (items.zipIdx.mapM fun entry => compute entry.2 entry.1) = .ok values ↔ values.length = items.length ∧
      ∀ (i : Nat) (item : α), items[i]? = some item → ∃ value, values[i]? = some value ∧ compute i item = .ok value := by
  rw [mapM_eq_ok_iff_getElem?, length_zipIdx]
  refine and_congr_right fun _ => ⟨fun h i item hitem => h i (item, i) ?_, fun h i entry hentry => ?_⟩
  · rw [getElem?_zipIdx, hitem, Option.map_some, Nat.zero_add]
  · rw [getElem?_zipIdx, Option.map_eq_some_iff] at hentry
    obtain ⟨item, hitem, rfl⟩ := hentry
    rw [Nat.zero_add]
    exact h i item hitem

theorem Yields.mapM (h : ∀ item ∈ items, (compute item).Yields (fun _ => True) excused) :
    (items.mapM compute).Yields (fun _ => True) excused := by
  induction items with
  | nil => trivial
  | cons item items ih =>
    obtain ⟨hitem, hitems⟩ := forall_mem_cons.mp h
    rw [mapM_cons]
    exact hitem.bind_any fun _ => (ih hitems).bind_any fun _ => trivial

end Except
