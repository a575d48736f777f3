import ClawWorks.Js.Text

/-!
# JavaScript objects and maps
-/

namespace ClawWorks

open List

/-! ## Maps -/

/-- A `Map`. -/
abbrev JsMap (κ α : Type*) := List (κ × α)

namespace JsMap

variable {κ α : Type*} [DecidableEq κ]

/-- `map.get(key)`. -/
def get : JsMap κ α → κ → Option α
  | [], _ => none
  | (k, a) :: m, key => if k = key then some a else get m key

/-- `map.set(key, value)`: an entry that exists keeps its place. -/
def set : JsMap κ α → κ → α → JsMap κ α
  | [], key, value => [(key, value)]
  | (k, a) :: m, key, value => if k = key then (k, value) :: m else (k, a) :: set m key value

@[simp] theorem get_nil (key : κ) : get ([] : JsMap κ α) key = none := rfl

theorem get_set (m : JsMap κ α) (key : κ) (value : α) (k : κ) :
    (m.set key value).get k = if key = k then some value else m.get k := by
  induction m with
  | nil => simp [set, get]
  | cons entry m ih =>
    obtain ⟨k', a⟩ := entry
    by_cases hkey : k' = key
    · subst hkey
      by_cases hk : k' = k <;> simp [set, get, hk]
    · by_cases hk : k' = k
      · subst hk
        simp [set, get, hkey, Ne.symm hkey]
      · simp [set, get, hkey, hk, ih]

variable {m : JsMap κ α} {k : κ}

theorem get_eq_none_iff : m.get k = none ↔ k ∉ m.map (·.1) := by
  induction m with
  | nil => simp
  | cons entry m ih =>
    obtain ⟨k', a⟩ := entry
    by_cases hk : k' = k
    · simp [get, hk]
    · simp [get, hk, ih, Ne.symm hk]

theorem set_of_get_none (h : m.get k = none) (a : α) : m.set k a = m ++ [(k, a)] := by
  induction m with
  | nil => rfl
  | cons entry m ih =>
    obtain ⟨k', a'⟩ := entry
    by_cases hk : k' = k
    · simp [get, hk] at h
    · simp only [get, if_neg hk] at h
      simp [set, hk, ih h]

theorem mem_set {key : κ} {value : α} {entry : κ × α} (h : entry ∈ m.set key value) :
    entry = (key, value) ∨ entry ∈ m := by
  induction m with
  | nil => exact .inl (mem_singleton.mp h)
  | cons first m ih =>
    obtain ⟨k, a⟩ := first
    by_cases hk : k = key
    · simp only [set, if_pos hk, mem_cons] at h
      rcases h with rfl | hrest
      · exact .inl (by rw [hk])
      · exact .inr (mem_cons_of_mem _ hrest)
    · simp only [set, if_neg hk, mem_cons] at h
      rcases h with rfl | hrest
      · exact .inr mem_cons_self
      · exact (ih hrest).imp_right (mem_cons_of_mem _)

theorem mem_of_get {a : α} (h : m.get k = some a) : (k, a) ∈ m := by
  induction m with
  | nil => cases h
  | cons entry m ih =>
    obtain ⟨k', a'⟩ := entry
    unfold get at h
    split at h
    · rename_i hk
      rw [hk, Option.some.inj h]
      exact mem_cons_self
    · exact mem_cons_of_mem _ (ih h)

theorem set_of_get {a : α} (h : m.get k = some a) : m.set k a = m := by
  induction m with
  | nil => cases h
  | cons entry m ih =>
    obtain ⟨name, found⟩ := entry
    by_cases hkey : name = k <;> simp_all [get, set]

/-- One write for each entry, in order. -/
def setAll (m : JsMap κ α) (entries : List (κ × α)) : JsMap κ α :=
  entries.foldl (fun m entry => m.set entry.1 entry.2) m

variable {entries : List (κ × α)}

theorem mem_of_get_setAll {a : α} (h : (m.setAll entries).get k = some a) : (k, a) ∈ entries ∨ m.get k = some a := by
  induction entries generalizing m with
  | nil => exact .inr h
  | cons entry entries ih =>
    rcases ih h with hrest | hset
    · exact .inl (mem_cons_of_mem _ hrest)
    rw [get_set] at hset
    split at hset
    · rename_i hkey
      obtain rfl := Option.some.inj hset
      exact .inl (hkey ▸ mem_cons_self)
    · exact .inr hset

theorem setAll_of_nodup (h : ((m ++ entries).map (·.1)).Nodup) : m.setAll entries = m ++ entries := by
  induction entries generalizing m with
  | nil => rw [append_nil]; rfl
  | cons entry entries ih =>
    have hnew : m.get entry.1 = none := by
      rw [get_eq_none_iff]
      rw [map_append, map_cons] at h
      exact fun hmem => (nodup_append.mp h).2.2 _ hmem _ mem_cons_self rfl
    have happend : m ++ entry :: entries = (m ++ [entry]) ++ entries := by rw [append_assoc]; rfl
    rw [happend] at h ⊢
    change (m.set entry.1 entry.2).setAll entries = _
    rw [set_of_get_none hnew]
    exact ih h

theorem get_of_mem (h : (m.map (·.1)).Nodup) {a : α} (hmem : (k, a) ∈ m) : m.get k = some a := by
  induction m with
  | nil => cases hmem
  | cons entry m ih =>
    obtain ⟨k', a'⟩ := entry
    obtain ⟨hfresh, hnodup⟩ := nodup_cons.mp h
    rcases mem_cons.mp hmem with hfirst | hrest
    · obtain ⟨rfl, rfl⟩ := Prod.mk.inj hfirst
      exact if_pos rfl
    · have hkeys : k ∈ m.map (·.1) := mem_map_of_mem hrest
      have hne : k' ≠ k := fun hkey => hfresh (hkey ▸ hkeys)
      rw [get, if_neg hne]
      exact ih hnodup hrest

theorem isSome_get_setAll (h : k ∈ entries.map (·.1) ∨ (m.get k).isSome) : ((m.setAll entries).get k).isSome := by
  induction entries generalizing m with
  | nil => exact h.resolve_left not_mem_nil
  | cons entry entries ih =>
    refine ih ?_
    rw [get_set]
    split_ifs with hkey
    · exact .inr rfl
    · refine h.imp_left fun hmem => ?_
      rw [map_cons, mem_cons] at hmem
      exact hmem.resolve_left (Ne.symm hkey)

theorem nodup_set (h : (m.map (·.1)).Nodup) (key : κ) (value : α) : ((m.set key value).map (·.1)).Nodup := by
  induction m with
  | nil => exact nodup_singleton key
  | cons entry m ih =>
    obtain ⟨k, a⟩ := entry
    by_cases hk : k = key
    · rwa [set, if_pos hk]
    obtain ⟨hfresh, hrest⟩ := nodup_cons.mp h
    rw [set, if_neg hk]
    refine nodup_cons.mpr ⟨fun hmem => ?_, ih hrest⟩
    obtain ⟨entry, hentry, rfl⟩ := mem_map.mp hmem
    rcases mem_set hentry with rfl | hold
    · exact hk rfl
    · have hkey : entry.1 ∈ m.map (·.1) := mem_map_of_mem hold
      exact hfresh hkey

theorem nodup_setAll (h : (m.map (·.1)).Nodup) (entries : List (κ × α)) : ((m.setAll entries).map (·.1)).Nodup := by
  induction entries generalizing m with
  | nil => exact h
  | cons entry entries ih => exact ih (nodup_set h entry.1 entry.2)

theorem mem_setAll {entry : κ × α} (h : entry ∈ m.setAll entries) : entry ∈ entries ∨ entry ∈ m := by
  induction entries generalizing m with
  | nil => exact .inr h
  | cons first entries ih =>
    rcases ih h with hrest | hset
    · exact .inl (mem_cons_of_mem _ hrest)
    · rcases mem_set hset with rfl | hold
      · exact .inl mem_cons_self
      · exact .inr hold

theorem get_map_snd {β : Type*} (m : JsMap κ α) (f : α → β) (k : κ) :
    get (m.map fun entry => (entry.1, f entry.2)) k = (m.get k).map f := by
  induction m with
  | nil => rfl
  | cons entry m ih =>
    rw [map_cons, get, get, ih]
    split <;> rfl

theorem length_set (m : JsMap κ α) (k : κ) (a : α) :
    (m.set k a).length = if (m.get k).isSome then m.length else m.length + 1 := by
  induction m with
  | nil => rfl
  | cons entry m ih =>
    obtain ⟨k', a'⟩ := entry
    by_cases hk : k' = k
    · simp [set, get, hk]
    · simp only [set, get, if_neg hk, length_cons, ih]
      split_ifs <;> rfl

theorem length_setAll_le (m : JsMap κ α) (entries : List (κ × α)) :
    (m.setAll entries).length ≤ m.length + entries.length := by
  induction entries generalizing m with
  | nil => exact Nat.le_refl _
  | cons entry entries ih =>
    have hrest := ih (m.set entry.1 entry.2)
    rw [length_set] at hrest
    rw [length_cons]
    change ((m.set entry.1 entry.2).setAll entries).length ≤ _
    split_ifs at hrest <;> omega

theorem nodup_of_length_setAll (hm : (m.map (·.1)).Nodup)
    (h : (m.setAll entries).length = m.length + entries.length) : ((m ++ entries).map (·.1)).Nodup := by
  induction entries generalizing m with
  | nil => simpa using hm
  | cons entry entries ih =>
    have hlength : ((m.set entry.1 entry.2).setAll entries).length = m.length + (entries.length + 1) := h
    have hle := length_setAll_le (m.set entry.1 entry.2) entries
    have hset := length_set m entry.1 entry.2
    have hnew : m.get entry.1 = none := by
      by_contra hfound
      rw [if_pos (Option.isSome_iff_ne_none.mpr hfound)] at hset
      omega
    rw [hnew, Option.isSome_none, if_neg (by simp)] at hset
    have happend : m ++ entry :: entries = m.set entry.1 entry.2 ++ entries := by
      rw [set_of_get_none hnew, append_assoc]
      rfl
    rw [happend]
    refine ih ?_ (by omega)
    rw [set_of_get_none hnew, map_append, nodup_append]
    refine ⟨hm, by simp, fun a ha b hb hab => get_eq_none_iff.mp hnew ?_⟩
    rw [map_singleton, mem_singleton] at hb
    exact hb ▸ hab ▸ ha

theorem get_filterMap (names : List κ) (value : κ → Option α) (k : κ) :
    get (names.filterMap fun name => (value name).map fun a => (name, a)) k = if k ∈ names then value k else none := by
  induction names with
  | nil => rfl
  | cons name names ih =>
    by_cases hk : name = k
    · subst hk
      cases hvalue : value name with
      | none => simp [hvalue, ih]
      | some a => simp [hvalue, get]
    · cases hvalue : value name with
      | none => simp [hvalue, ih, Ne.symm hk]
      | some a => simp [hvalue, get, hk, ih, Ne.symm hk]

end JsMap

/-! ## Plain objects -/

/-- A record: its own properties. -/
abbrev PlainObject (α : Type*) := JsMap JsString α

/-- What an object inherits instead of owning: its `typeof` and the text it turns into where a string is needed. -/
structure InheritedMember where
  typeOf : JsString
  text : JsString
  deriving DecidableEq

/-- The functions every plain object inherits, by the name each carries. -/
def OBJECT_PROTOTYPE_METHODS : List (JsString × JsString) :=
  [(js "constructor", js "Object"), (js "hasOwnProperty", js "hasOwnProperty"),
    (js "isPrototypeOf", js "isPrototypeOf"), (js "propertyIsEnumerable", js "propertyIsEnumerable"),
    (js "toLocaleString", js "toLocaleString"), (js "toString", js "toString"), (js "valueOf", js "valueOf"),
    (js "__defineGetter__", js "__defineGetter__"), (js "__defineSetter__", js "__defineSetter__"),
    (js "__lookupGetter__", js "__lookupGetter__"), (js "__lookupSetter__", js "__lookupSetter__")]

/-- The member of `Object.prototype` under a name. -/
def inheritedMember? (name : JsString) : Option InheritedMember :=
  match JsMap.get OBJECT_PROTOTYPE_METHODS name with
  | some method => some ⟨js "function", js "function " ++ method ++ js "() \x7b [native code] \x7d"⟩
  | none => if name = js "__proto__" then some ⟨js "object", js "[object Object]"⟩ else none

/-- What reading a property gives: the object's own value, something it inherits, or `undefined`. -/
inductive PropertyRead (α : Type*)
  | own (value : α)
  | inherited (member : InheritedMember)
  | undefined
  deriving DecidableEq

namespace PlainObject

variable {α : Type*}

/-- `record[name]`. -/
def read (record : PlainObject α) (name : JsString) : PropertyRead α :=
  match JsMap.get record name with
  | some value => .own value
  | none =>
    match inheritedMember? name with
    | some member => .inherited member
    | none => .undefined

theorem read_eq_own_iff {record : PlainObject α} {name : JsString} {value : α} :
    read record name = .own value ↔ JsMap.get record name = some value := by
  unfold read
  split
  · rename_i v hv
    rw [hv]
    simp
  · rename_i hnone
    rw [hnone]
    split <;> simp

theorem get_of_read_undefined {record : PlainObject α} {name : JsString} (h : read record name = .undefined) :
    JsMap.get record name = none := by
  cases hget : JsMap.get record name with
  | none => rfl
  | some value => rw [read_eq_own_iff.mpr hget] at h; cases h

end PlainObject

end ClawWorks
