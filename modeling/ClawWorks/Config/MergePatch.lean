import ClawWorks.Config.ConfigValue
import ClawWorks.Routing.SessionKey
import Mathlib.Data.List.Perm.Subperm

/-!
# Writing an edit of the config

The difference of two trees is a patch that a third one takes. Key by key the patch holds `patchEntry` and the patched
tree `patched`, down to where the next tree has no object any more: what it replaces or deletes there, the source loses
whole (`Cut`).
-/

namespace ClawWorks.Config

open List ConfigValue JsMap

namespace ConfigValue

def isRecord : ConfigValue → Bool
  | object _ => true
  | _ => false

def members : ConfigValue → List (JsString × ConfigValue)
  | object members => members
  | _ => []

end ConfigValue

def isBlockedObjectKey (key : JsString) : Bool :=
  Routing.BLOCKED_OBJECT_KEYS.contains key

/-- `delete result[key]`. -/
def deleteKey (result : List (JsString × ConfigValue)) (key : JsString) : List (JsString × ConfigValue) :=
  result.filter (·.1 ≠ key)

/-- No key is one that objects inherit, which `in` would find too. -/
def createMergePatch : ConfigValue → ConfigValue → ConfigValue
  | object base, object target =>
    object ((base.filterMap fun member =>
      (match JsMap.get target member.1 with
      | none => some null
      | some targetValue =>
        if member.2.isRecord && targetValue.isRecord then
          let childPatch := createMergePatch member.2 targetValue
          if childPatch.isRecord && childPatch.members.isEmpty then none else some childPatch
        else if !isDeepStrictEqual member.2 targetValue then some targetValue
        else none).map fun value => (member.1, value)) ++
      target.filter fun member => (JsMap.get base member.1).isNone)
  | _, target => target
termination_by base => sizeOf base
decreasing_by exact sizeOf_member_lt ‹_›

/-- No array is merged by the ids of its items. -/
def applyMergePatch (base : ConfigValue) : ConfigValue → ConfigValue
  | object patch =>
    object (patch.foldl (fun result member =>
      if isBlockedObjectKey member.1 then result
      else match member.2 with
      | null => deleteKey result member.1
      | value =>
        if value.isRecord then
          let baseValue := (JsMap.get result member.1).getD null
          JsMap.set result member.1 (applyMergePatch (if baseValue.isRecord then baseValue else object []) member.2)
        else JsMap.set result member.1 value) base.members)
  | patch => patch
termination_by patch => sizeOf patch
decreasing_by exact sizeOf_member_lt ‹_›

/-! ## Trees by their keys -/

/-- The value of a key, none where there is no object. -/
def member (value : Option ConfigValue) (key : JsString) : Option ConfigValue :=
  JsMap.get (value.getD null).members key

def valueAt (value : Option ConfigValue) (path : List JsString) : Option ConfigValue :=
  path.foldl member value

/-- Both absent, or the same up to the order of members. -/
def Same : Option ConfigValue → Option ConfigValue → Prop
  | none, none => True
  | some a, some b => isDeepStrictEqual a b
  | _, _ => False

/-- What the patch says of a key. -/
def patchEntry : Option ConfigValue → Option ConfigValue → Option ConfigValue
  | none, target => target
  | some _, none => some null
  | some base, some target =>
    if base.isRecord && target.isRecord then
      if (createMergePatch base target).members.isEmpty then none else some (createMergePatch base target)
    else if isDeepStrictEqual base target then none
    else some target

/-- What an entry of a patch leaves of a key. -/
def patched (base : Option ConfigValue) : Option ConfigValue → Option ConfigValue
  | none => base
  | some null => none
  | some value => some (applyMergePatch (base.getD null) value)

/-- The next tree differs and has no object. -/
def Cut (runtime next : Option ConfigValue) : Prop :=
  (next.getD null).isRecord = false ∧ ¬ Same runtime next

/-- A tree of JSON objects without nulls and blocked keys. -/
structure Plain (value : ConfigValue) : Prop where
  unique : value.UniqueKeys
  unblocked : ∀ key ∈ Routing.BLOCKED_OBJECT_KEYS, ¬ value.HasKey key
  nonnull : ¬ Within value null

abbrev PlainIn (value : Option ConfigValue) : Prop :=
  ∀ v, value = some v → Plain v

variable {base target source runtime next : ConfigValue} {b t m : List (JsString × ConfigValue)} {key : JsString}
  {r n s : Option ConfigValue}

theorem eq_object_of_isRecord (h : base.isRecord) : ∃ m, base = object m := by
  cases base with
  | object m => exact ⟨m, rfl⟩
  | _ => cases h

theorem Plain.get (h : Plain (object m)) {value : ConfigValue} (hget : JsMap.get m key = some value) : Plain value := by
  have hmem := mem_of_get hget
  exact ⟨(uniqueKeys_object.mp h.unique).2 _ hmem,
    fun k hk hhas => h.unblocked k hk (hasKey_object.mpr (.inr ⟨_, hmem, hhas⟩)), fun hnull => h.nonnull (.member hmem hnull)⟩

theorem isDeepStrictEqual_iff (hb : (b.map (·.1)).Nodup) (ht : (t.map (·.1)).Nodup) :
    isDeepStrictEqual (object b) (object t) ↔ ∀ key, Same (JsMap.get b key) (JsMap.get t key) := by
  have hmembers : isDeepStrictEqual (object b) (object t) ↔ b.length = t.length ∧
      ∀ entry ∈ b, Same (some entry.2) (JsMap.get t entry.1) := by
    simp only [isDeepStrictEqual, Bool.and_eq_true, beq_iff_eq, all_map, all_eq_true, Function.comp_apply, id_eq]
    refine and_congr_right fun _ => forall₂_congr fun entry _ => ?_
    cases JsMap.get t entry.1 <;> simp [Same]
  have hsubset : (∀ entry ∈ b, Same (some entry.2) (JsMap.get t entry.1)) → b.map (·.1) ⊆ t.map (·.1) := by
    intro h key hkey
    obtain ⟨entry, hmem, rfl⟩ := mem_map.mp hkey
    by_contra hnot
    simpa [Same, get_eq_none_iff.mpr hnot] using h entry hmem
  rw [hmembers]
  constructor
  · rintro ⟨hlength, hall⟩ key
    cases hget : JsMap.get b key with
    | some value => exact hall _ (mem_of_get hget)
    | none =>
      have hperm := (subperm_of_subset hb (hsubset hall)).perm_of_length_le (by simp [hlength])
      rw [get_eq_none_iff.mpr fun hkey => get_eq_none_iff.mp hget (hperm.mem_iff.mpr hkey)]
      trivial
  · intro h
    have hall : ∀ entry ∈ b, Same (some entry.2) (JsMap.get t entry.1) := fun entry hmem =>
      get_of_mem hb hmem ▸ h entry.1
    have hkeys : ∀ key, key ∈ b.map (·.1) ↔ key ∈ t.map (·.1) := fun key =>
      ⟨fun hkey => hsubset hall hkey, fun hkey => by_contra fun hnot => by
        have hsame := h key
        rw [get_eq_none_iff.mpr hnot] at hsame
        cases hget : JsMap.get t key with
        | none => exact get_eq_none_iff.mp hget hkey
        | some value => simp [Same, hget] at hsame⟩
    exact ⟨by simpa using ((perm_ext_iff_of_nodup hb ht).mpr hkeys).length_eq, hall⟩

/-! ## One key -/

theorem get_filterMap_members {α : Type} {l : List (JsString × α)} (f : JsString × α → Option α)
    (h : (l.map (·.1)).Nodup) :
    JsMap.get (l.filterMap fun entry => (f entry).map fun value => (entry.1, value)) key =
      (JsMap.get l key).bind fun value => f (key, value) := by
  induction l with
  | nil => rfl
  | cons entry l ih =>
    obtain ⟨name, value⟩ := entry
    rw [map_cons, nodup_cons] at h
    have hrest := ih h.2
    by_cases hkey : name = key
    · subst hkey
      rw [get_eq_none_iff.mpr h.1] at hrest
      cases hf : f (name, value) <;> simp [hf, JsMap.get, hrest]
    · cases hf : f (name, value) <;> simp [hf, JsMap.get, hrest, hkey]

theorem get_append_of {α : Type} (l l' : List (JsString × α)) :
    JsMap.get (l ++ l') key = (JsMap.get l key).or (JsMap.get l' key) := by
  induction l with
  | nil => rfl
  | cons entry l ih =>
    rw [cons_append, JsMap.get, JsMap.get, ih]
    split <;> rfl

theorem get_filter {α : Type} (l : List (JsString × α)) (p : JsString → Bool) :
    JsMap.get (l.filter fun entry => p entry.1) key = if p key then JsMap.get l key else none := by
  induction l with
  | nil => simp
  | cons entry l ih =>
    by_cases hkey : entry.1 = key
    · by_cases hp : p key <;> simp_all [JsMap.get]
    · by_cases hp : p entry.1 <;> simp_all [JsMap.get]

theorem get_deleteKey (l : List (JsString × ConfigValue)) (name : JsString) :
    JsMap.get (deleteKey l name) key = if name = key then none else JsMap.get l key := by
  rw [deleteKey, get_filter l fun k => decide (k ≠ name)]
  by_cases hkey : name = key
  · simp [hkey]
  · simp [hkey, Ne.symm hkey]

theorem get_createMergePatch (hb : (b.map (·.1)).Nodup) :
    JsMap.get (createMergePatch (object b) (object t)).members key = patchEntry (JsMap.get b key) (JsMap.get t key) := by
  rw [createMergePatch, members, get_append_of, get_filterMap_members _ hb,
    get_filter t fun key => (JsMap.get b key).isNone]
  cases hgetb : JsMap.get b key with
  | none => simp [patchEntry]
  | some base =>
    cases hgett : JsMap.get t key with
    | none => simp [patchEntry, hgett]
    | some target =>
      have hrecord : (base.isRecord && target.isRecord) = true → (createMergePatch base target).isRecord := by
        cases base <;> cases target <;> simp [isRecord, createMergePatch]
      cases hbase : base.isRecord <;> cases htarget : target.isRecord <;> cases hdeep : isDeepStrictEqual base target <;>
        simp_all [patchEntry]

theorem applyMergePatch_members {value : ConfigValue} (h : base.members = target.members) :
    applyMergePatch base value = applyMergePatch target value := by
  cases value <;> simp only [applyMergePatch, h]

theorem get_applyMergePatch {patch : List (JsString × ConfigValue)} (hpatch : (patch.map (·.1)).Nodup)
    (hblocked : ∀ entry ∈ patch, isBlockedObjectKey entry.1 = false) :
    JsMap.get (applyMergePatch base (object patch)).members key =
      patched (JsMap.get base.members key) (JsMap.get patch key) := by
  rw [applyMergePatch, members]
  generalize base.members = result
  induction patch generalizing result with
  | nil => rfl
  | cons entry patch ih =>
    obtain ⟨name, value⟩ := entry
    rw [map_cons, nodup_cons] at hpatch
    rw [foldl_cons, ih hpatch.2 fun e he => hblocked e (mem_cons_of_mem _ he), hblocked _ mem_cons_self]
    have hbase : ∀ o : Option ConfigValue,
        (if (o.getD null).isRecord then o.getD null else object []).members = (o.getD null).members := by
      rintro (_ | _ | _ | _ | _ | _ | _) <;> simp [isRecord, members]
    by_cases hkey : name = key
    · subst hkey
      rw [get_eq_none_iff.mpr hpatch.1]
      cases value with
      | object members =>
        simp only [patched, JsMap.get, get_set, isRecord, if_true, Bool.false_eq_true, if_false]
        exact congrArg some (applyMergePatch_members (hbase _))
      | null => simp [patched, JsMap.get, get_deleteKey]
      | array | string | number | boolean => simp [patched, JsMap.get, get_set, isRecord, applyMergePatch]
    · cases value <;> simp [JsMap.get, get_set, isRecord, get_deleteKey, hkey]

theorem eq_nil_iff_get {l : List (JsString × ConfigValue)} : l = [] ↔ ∀ key, JsMap.get l key = none := by
  refine ⟨fun h key => h ▸ rfl, fun h => eq_nil_iff_forall_not_mem.mpr fun entry hmem => ?_⟩
  exact get_eq_none_iff.mp (h entry.1) (mem_map_of_mem hmem)

theorem patchEntry_eq_none_iff (hr : PlainIn r) (hn : PlainIn n) : patchEntry r n = none ↔ Same r n := by
  rcases r with _ | base
  · cases n <;> simp [patchEntry, Same]
  induction base generalizing n with
  | object b ih =>
    rcases n with _ | target
    · simp [patchEntry, Same]
    cases target with
    | object t =>
      have hb := hr _ rfl
      have ht := hn _ rfl
      have hkeys : ∀ key, patchEntry (JsMap.get b key) (JsMap.get t key) = none ↔
          Same (JsMap.get b key) (JsMap.get t key) := fun key => by
        cases hget : JsMap.get b key with
        | none => cases JsMap.get t key <;> simp [patchEntry, Same]
        | some value =>
          exact ih _ (mem_of_get hget) (fun _ h => ht.get h) fun _ h => Option.some.inj h ▸ hb.get hget
      rw [Same, isDeepStrictEqual_iff (uniqueKeys_object.mp hb.unique).1 (uniqueKeys_object.mp ht.unique).1,
        ← forall_congr' hkeys]
      simp only [← get_createMergePatch (uniqueKeys_object.mp hb.unique).1, ← eq_nil_iff_get]
      simp [patchEntry, isRecord]
    | _ => simp [patchEntry, Same, isRecord, isDeepStrictEqual]
  | _ => cases n <;> simp [patchEntry, Same, isRecord]

theorem keys_createMergePatch (hb : (b.map (·.1)).Nodup) (ht : (t.map (·.1)).Nodup) :
    ((createMergePatch (object b) (object t)).members.map (·.1)).Nodup := by
  have hsub : ∀ (f : JsString × ConfigValue → Option ConfigValue) (l : List (JsString × ConfigValue)),
      (l.filterMap fun entry => (f entry).map fun value => (entry.1, value)).map (·.1) <+ l.map (·.1) := by
    intro f l
    induction l with
    | nil => exact .slnil
    | cons entry l ih => cases hf : f entry <;> simp [hf, ih, Sublist.cons]
  rw [createMergePatch, members, map_append, nodup_append]
  refine ⟨hb.sublist (hsub _ b), ht.sublist (filter_sublist.map _), fun k hk k' hk' heq => ?_⟩
  obtain ⟨entry, hmem, rfl⟩ := mem_map.mp hk'
  have hnone := Option.isNone_iff_eq_none.mp (mem_filter.mp hmem).2
  exact get_eq_none_iff.mp hnone (heq ▸ (hsub _ b).subset hk)

/-- The patch of an object, key by key. -/
structure Merges (r : Option ConfigValue) (t entries : List (JsString × ConfigValue)) : Prop where
  entry : patchEntry r (some (object t)) = some (object entries) ∨
    patchEntry r (some (object t)) = none ∧ entries = []
  nodup : (entries.map (·.1)).Nodup
  unblocked : ∀ entry ∈ entries, isBlockedObjectKey entry.1 = false
  get : ∀ key, JsMap.get entries key = patchEntry (member r key) (JsMap.get t key)

theorem exists_merges (hr : PlainIn r) (ht : Plain (object t)) : ∃ entries,
    Merges r t entries := by
  have hunblocked : ∀ m, Plain (object m) → ∀ key ∈ m.map (·.1), isBlockedObjectKey key = false := fun m hm key hkey => by
    by_contra hblocked
    exact hm.unblocked key (by simpa [isBlockedObjectKey] using hblocked) (hasKey_object.mpr (.inl hkey))
  have hnodup := (uniqueKeys_object.mp ht.unique).1
  have hwhole : patchEntry r (some (object t)) = some (object t) → (∀ key, member r key = none) → Merges r t t :=
    fun hentry hnone => ⟨.inl hentry, hnodup, fun entry hmem => hunblocked t ht _ (mem_map_of_mem hmem), fun key => by
      rw [hnone key]
      rfl⟩
  rcases r with _ | base
  · exact ⟨t, hwhole rfl fun _ => rfl⟩
  cases base with
  | object b =>
    have hb := hr _ rfl
    have hget : ∀ key, JsMap.get (createMergePatch (object b) (object t)).members key = _ := fun key =>
      get_createMergePatch (uniqueKeys_object.mp hb.unique).1
    obtain ⟨entries, hentries⟩ : ∃ entries, createMergePatch (object b) (object t) = object entries :=
      ⟨_, by rw [createMergePatch]⟩
    have hkeys := keys_createMergePatch (uniqueKeys_object.mp hb.unique).1 hnodup
    rw [hentries, members] at hkeys
    simp only [hentries, members] at hget
    refine ⟨entries, ?_, hkeys, fun entry hmem => by_contra fun hblocked => ?_, hget⟩
    · by_cases hempty : entries = [] <;> simp [patchEntry, isRecord, hentries, members, hempty]
    · have hentry := hget entry.1
      rw [get_eq_none_iff.mpr fun h => hblocked (hunblocked b hb _ h),
        get_eq_none_iff.mpr fun h => hblocked (hunblocked t ht _ h)] at hentry
      exact get_eq_none_iff.mp hentry (mem_map_of_mem hmem)
  | _ => exact ⟨t, hwhole (by simp [patchEntry, isRecord, isDeepStrictEqual]) fun _ => rfl⟩

theorem Merges.member {entries : List (JsString × ConfigValue)} (h : Merges r t entries) (key : JsString) :
    Config.member (patched s (patchEntry r (some (object t)))) key =
      patched (Config.member s key) (patchEntry (Config.member r key) (JsMap.get t key)) := by
  rw [← h.get]
  rcases h.entry with hentry | ⟨hentry, rfl⟩
  · rw [hentry]
    exact get_applyMergePatch h.nodup h.unblocked
  · rw [hentry]
    rfl

/-- Below a tree that is not cut the entries of the patch are those of the keys. -/
theorem member_patched (hr : PlainIn r) (hn : PlainIn n)
    (hcut : ¬ Cut r n) (key : JsString) :
    member (patched s (patchEntry r n)) key = patched (member s key) (patchEntry (member r key) (member n key)) := by
  by_cases hrecord : (n.getD null).isRecord
  · rcases n with _ | value
    · cases hrecord
    obtain ⟨t, rfl⟩ := eq_object_of_isRecord hrecord
    obtain ⟨entries, hentries⟩ := exists_merges hr (hn _ rfl)
    exact hentries.member key
  · have hsame : Same r n := by_contra fun h => hcut ⟨by simpa using hrecord, h⟩
    rw [(patchEntry_eq_none_iff hr hn).mpr hsame]
    have hnone : patchEntry (member r key) (member n key) = none := by
      rcases n with _ | _ | _ | _ | _ | _ | _ <;> rcases r with _ | _ | _ | _ | _ | _ | _ <;>
        simp_all [Same, isDeepStrictEqual, isRecord, member, members, patchEntry]
    rw [hnone]
    rfl

/-- A tree that is cut is the next one. -/
theorem patched_of_cut (hn : PlainIn n) (hcut : Cut r n) : patched s (patchEntry r n) = n := by
  obtain ⟨hrecord, hdiffers⟩ := hcut
  rcases n with _ | value
  · cases r with
    | none => exact absurd trivial hdiffers
    | some base => rfl
  · have hentry : patchEntry r (some value) = some value := by
      cases r with
      | none => rfl
      | some base => simp_all [patchEntry, Same]
    have hnull : value ≠ null := fun hnull => (hn _ rfl).nonnull (hnull ▸ .here _)
    rw [hentry]
    cases value <;> simp_all [patched, applyMergePatch, isRecord]

theorem Plain.member (h : PlainIn r) (key : JsString) : ∀ value, Config.member r key = some value → Plain value := by
  rcases r with _ | _ | _ | _ | _ | _ | _ <;> intro value hget <;> first | cases hget | exact (h _ rfl).get hget

/-! ## The whole tree -/

/-- The tree is cut at the path or above. -/
def CutAbove (runtime next : Option ConfigValue) (path : List JsString) : Prop :=
  ∃ above, above <+: path ∧ Cut (valueAt runtime above) (valueAt next above)

theorem cutAbove_cons {path : List JsString} :
    CutAbove r n (key :: path) ↔ Cut r n ∨ CutAbove (member r key) (member n key) path := by
  simp only [CutAbove, prefix_cons_iff]
  constructor
  · rintro ⟨above, rfl | ⟨above, rfl, habove⟩, hcut⟩
    · exact .inl hcut
    · exact .inr ⟨above, habove, hcut⟩
  · rintro (hcut | ⟨above, habove, hcut⟩)
    · exact ⟨[], .inl rfl, hcut⟩
    · exact ⟨key :: above, .inr ⟨above, rfl, habove⟩, hcut⟩

theorem valueAt_patched (s : Option ConfigValue) (path : List JsString) (hr : PlainIn r)
    (hn : PlainIn n) :
    (CutAbove r n path → valueAt (patched s (patchEntry r n)) path = valueAt n path) ∧
      (¬ CutAbove r n path → valueAt (patched s (patchEntry r n)) path =
        patched (valueAt s path) (patchEntry (valueAt r path) (valueAt n path))) := by
  induction path generalizing s r n with
  | nil =>
    refine ⟨fun ⟨above, habove, hcut⟩ => ?_, fun _ => rfl⟩
    obtain rfl := prefix_nil.mp habove
    exact patched_of_cut hn hcut
  | cons key path ih =>
    rw [cutAbove_cons]
    by_cases hcut : Cut r n
    · refine ⟨fun _ => ?_, fun h => absurd (.inl hcut) h⟩
      rw [patched_of_cut hn hcut]
    · simp only [hcut, false_or, valueAt, foldl_cons]
      rw [member_patched hr hn hcut]
      exact ih _ (Plain.member hr key) (Plain.member hn key)

theorem Plain.valueAt (h : PlainIn r) (path : List JsString) :
    ∀ value, Config.valueAt r path = some value → Plain value := by
  induction path generalizing r with
  | nil => exact h
  | cons key path ih => exact ih (Plain.member h key)

theorem nodup_applyMergePatch (entries : List (JsString × ConfigValue)) (h : (base.members.map (·.1)).Nodup) :
    ((applyMergePatch base (object entries)).members.map (·.1)).Nodup := by
  rw [applyMergePatch, members]
  generalize base.members = result at h ⊢
  induction entries generalizing result with
  | nil => exact h
  | cons entry entries ih =>
    refine ih _ ?_
    obtain ⟨name, value⟩ := entry
    dsimp only
    split
    · exact h
    cases value
    case null => exact h.sublist (filter_sublist.map _)
    all_goals exact nodup_set h ..

theorem same_patched_of_no_record (hrecord : (n.getD null).isRecord = false)
    (hr : PlainIn r) (hn : PlainIn n) :
    Same (patched r (patchEntry r n)) n := by
  by_cases hsame : Same r n
  · rwa [(patchEntry_eq_none_iff hr hn).mpr hsame]
  · rw [patched_of_cut hn ⟨hrecord, hsame⟩]
    cases n with
    | none => trivial
    | some value => exact isDeepStrictEqual_self (hn _ rfl).unique

/-- **The edit of a tree gives the next one.** -/
theorem same_patched (hr : PlainIn r) (hn : PlainIn n) : Same (patched r (patchEntry r n)) n := by
  rcases n with _ | value
  · exact same_patched_of_no_record rfl hr hn
  induction value generalizing r with
  | object t ih =>
    obtain ⟨entries, hentries⟩ := exists_merges hr (hn _ rfl)
    rcases hentries.entry with hentry | ⟨hentry, -⟩
    · have hbase : ((r.getD null).members.map (·.1)).Nodup := by
        rcases r with _ | _ | _ | _ | _ | _ | _
        case some.object => exact (uniqueKeys_object.mp (hr _ rfl).unique).1
        all_goals exact nodup_nil
      obtain ⟨whole, hwhole⟩ : ∃ whole, applyMergePatch (r.getD null) (object entries) = object whole :=
        ⟨_, by rw [applyMergePatch]⟩
      have hpatched : patched r (patchEntry r (some (object t))) = some (object whole) := hentry ▸ congrArg some hwhole
      have hnodup : (whole.map (·.1)).Nodup := by
        simpa only [hwhole, members] using nodup_applyMergePatch entries hbase
      rw [hpatched]
      refine (isDeepStrictEqual_iff hnodup (uniqueKeys_object.mp (hn _ rfl).unique).1).mpr fun key => ?_
      have hkey : JsMap.get whole key = _ := (congrArg (member · key) hpatched).symm.trans (hentries.member key)
      rw [hkey]
      cases hget : JsMap.get t key with
      | none => cases member r key <;> trivial
      | some value =>
        exact ih _ (mem_of_get hget) (Plain.member hr key) fun _ h => Option.some.inj h ▸ (hn _ rfl).get hget
    · rw [hentry]
      exact (patchEntry_eq_none_iff hr hn).mp hentry
  | array | string | number | boolean | null => exact same_patched_of_no_record rfl hr hn

theorem patched_root (hs : source.isRecord) (hr : runtime.isRecord) (hn : next.isRecord) :
    patched (some source) (patchEntry (some runtime) (some next)) =
      some (applyMergePatch source (createMergePatch runtime next)) := by
  obtain ⟨source, rfl⟩ := eq_object_of_isRecord hs
  obtain ⟨b, rfl⟩ := eq_object_of_isRecord hr
  obtain ⟨t, rfl⟩ := eq_object_of_isRecord hn
  obtain ⟨entries, hentries⟩ : ∃ entries, createMergePatch (object b) (object t) = object entries :=
    ⟨_, by rw [createMergePatch]⟩
  rw [hentries]
  by_cases hempty : entries = []
  · simp [patchEntry, isRecord, hentries, members, hempty, patched, applyMergePatch]
  · simp [patchEntry, isRecord, hentries, members, hempty, patched]

theorem plain_of_members (hnodup : (m.map (·.1)).Nodup) (hblocked : ∀ entry ∈ m, entry.1 ∉ Routing.BLOCKED_OBJECT_KEYS)
    (hm : ∀ entry ∈ m, Plain entry.2) : Plain (object m) where
  unique := uniqueKeys_object.mpr ⟨hnodup, fun entry hmem => (hm entry hmem).unique⟩
  unblocked key hkey h := by
    rcases hasKey_object.mp h with hmem | ⟨entry, hmem, hbelow⟩
    · obtain ⟨entry, hentry, rfl⟩ := mem_map.mp hmem
      exact hblocked entry hentry hkey
    · exact (hm entry hmem).unblocked key hkey hbelow
  nonnull := by
    rintro (_ | ⟨hmem, hbelow⟩)
    exact (hm _ hmem).nonnull hbelow

def SOURCE : ConfigValue := object [([97], object [([122], number [49])])]

def RUNTIME : ConfigValue := object [([97], number [49])]

theorem applyMergePatch_filter (base : ConfigValue) (entries : List (JsString × ConfigValue)) :
    applyMergePatch base (object entries) = applyMergePatch base (object (entries.filter (!isBlockedObjectKey ·.1))) := by
  simp only [applyMergePatch, foldl_filter]
  congr 2
  funext _ entry
  cases isBlockedObjectKey entry.1 <;> rfl

/-- **Applying a patch again changes nothing.** -/
theorem applyMergePatch_twice {patch : ConfigValue} (h : patch.UniqueKeys) :
    applyMergePatch (applyMergePatch base patch) patch = applyMergePatch base patch := by
  induction patch generalizing base with
  | object entries ih =>
    obtain ⟨hnodup, hunique⟩ := uniqueKeys_object.mp h
    rw [applyMergePatch_filter base, applyMergePatch_filter]
    generalize hkept : entries.filter (!isBlockedObjectKey ·.1) = kept
    have hunblocked : ∀ entry ∈ kept, isBlockedObjectKey entry.1 = false := by
      rw [← hkept]
      simp
    have hkeys : (kept.map (·.1)).Nodup := hkept ▸ hnodup.sublist (filter_sublist.map _)
    obtain ⟨merged, hmerged⟩ : ∃ merged, applyMergePatch base (object kept) = object merged := by
      rw [applyMergePatch]
      exact ⟨_, rfl⟩
    rw [hmerged, applyMergePatch]
    -- each entry finds what the first application left
    refine congrArg object (foldlRecOn (motive := (· = merged)) kept _ rfl ?_)
    rintro result rfl ⟨key, value⟩ hmem
    have hget : JsMap.get result key = patched (JsMap.get base.members key) (some value) := by
      rw [← get_of_mem hkeys hmem, ← get_applyMergePatch hkeys hunblocked, hmerged]
      rfl
    rw [hunblocked _ hmem]
    cases value with
    | object child =>
      have hentry : (key, object child) ∈ entries := mem_of_mem_filter (hkept ▸ hmem)
      have hagain := @ih _ hentry ((JsMap.get base.members key).getD null) (hunique _ hentry)
      obtain ⟨below, hchild⟩ : ∃ below, applyMergePatch ((JsMap.get base.members key).getD null) (object child) =
          object below := by
        rw [applyMergePatch]
        exact ⟨_, rfl⟩
      simp only [patched, hchild] at hget hagain
      simp [hget, isRecord, hagain, set_of_get hget]
    | null =>
      refine filter_eq_self.mpr fun _ hin => decide_eq_true fun (heq : _ = key) => ?_
      exact get_eq_none_iff.mp hget (heq ▸ mem_map_of_mem hin)
    | _ => exact set_of_get (hget.trans (by simp [patched, applyMergePatch]))
  | _ => simp [applyMergePatch]

theorem applyMergePatch_twice_source :
    applyMergePatch (applyMergePatch RUNTIME SOURCE) SOURCE = applyMergePatch RUNTIME SOURCE := by
  have hnumber : (number [49]).UniqueKeys := by rintro _ ⟨⟩
  exact applyMergePatch_twice (uniqueKeys_object.mpr ⟨by simp, by simpa [uniqueKeys_object] using hnumber⟩)

end ClawWorks.Config
