import ClawWorks.Config.RestoredFrom

/-!
# Environment references survive a config write

Copies of objects are made by assignments, so that a key `__proto__` gets lost: of the parsed config when it is
resolved, and of the incoming one where an object of it is walked beside an authored one.
-/

namespace ClawWorks

open JsMap Option List
namespace Config
open ConfigValue (array at? hasKey_array hasKey_object object shape string uniqueKeys_array uniqueKeys_object)


variable {env : Env} {incoming parsed result : ConfigValue}

/-- An incoming object that is walked beside an authored one has a key `__proto__`. -/
def LosesMember (env : Env) (incoming parsed : ConfigValue) : Prop :=
  ∃ path source members authored, RestoredFrom env incoming parsed path source ∧
    incoming.at? path = some (.object members) ∧ parsed.at? source = some (.object authored) ∧
      PROTO ∈ members.map (·.1)

def SameShape (incoming result : ConfigValue) : Prop :=
  result.shape = incoming.shape

def StringsKept (env : Env) (incoming parsed result : ConfigValue) : Prop :=
  ∀ path text, result.at? path = some (.string text) → incoming.at? path = some (.string text) ∨
    ∃ source, RestoredFrom env incoming parsed path source ∧ parsed.at? source = some (.string text) ∧
      incoming.at? path = some (.string (substituteString env text))

/-- No two entries are restored from one authored entry. -/
def RestoredOnce (env : Env) (incoming parsed : ConfigValue) : Prop :=
  ∀ path path' source, RestoredFrom env incoming parsed path source → RestoredFrom env incoming parsed path' source →
    path = path'

theorem not_hasKey_of_restoreEnvVarRefs (hunique : incoming.UniqueKeys) (hkey : ¬incoming.HasKey PROTO)
    (h : restoreEnvVarRefs env incoming parsed = .ok result) : ¬result.HasKey PROTO := by
  refine restoreEnvVarRefs_induction (P := fun incoming _ result => incoming.UniqueKeys → ¬incoming.HasKey PROTO →
    ¬result.HasKey PROTO) (fun _ _ _ hkey => hkey) (fun _ _ _ => ?_) ?_ ?_ h hunique hkey
  · rintro ⟨members, _ | _ | _, -⟩
  · intro authored items next hnext ih hunique hkey
    rw [hasKey_array]
    rintro ⟨value, hvalue, hbelow⟩
    obtain ⟨i, hi⟩ := List.mem_iff_getElem?.mp hvalue
    have hlt : i < items.length := hnext.length ▸ (List.getElem?_eq_some_iff.mp hi).1
    obtain ⟨found, hfound, hrestored⟩ := hnext.items i _ (List.getElem?_eq_getElem hlt)
    obtain rfl := mem_unique hi hfound
    have hitemKey : ¬(items[i]).HasKey PROTO := fun hfound => hkey (hasKey_array.mpr ⟨_, getElem_mem hlt, hfound⟩)
    rcases hrestored with ⟨heq, -⟩ | ⟨j, source, -, hsource, hok⟩
    · exact hitemKey (heq ▸ hbelow)
    · exact ih source (mem_of_getElem? hsource) _ _ hok
        (uniqueKeys_array.mp hunique _ (getElem_mem hlt)) hitemKey hbelow
  · intro authored members values hvalues ih hunique hkey
    obtain ⟨hnodup, hmembers⟩ := uniqueKeys_object.mp hunique
    rw [assignAll_of_nodup (hvalues.keys ▸ hnodup), hasKey_object]
    rintro (hname | ⟨entry, hentry, hbelow⟩)
    · obtain ⟨entry, hentry, hname⟩ := mem_map.mp hname
      have hne : entry.1 ≠ PROTO := by simpa using of_mem_filter hentry
      exact hne hname
    · obtain ⟨item, hitem, hrestored⟩ := hvalues.mem (mem_of_mem_filter hentry)
      have hitemKey : ¬item.HasKey PROTO := fun hfound => hkey (hasKey_object.mpr (.inr ⟨_, hitem, hfound⟩))
      rcases hrestored with ⟨-, heq⟩ | ⟨source, hsource, hok⟩
      · exact hitemKey (heq ▸ hbelow)
      · exact ih _ (mem_of_get hsource) _ _ hok (hmembers _ hitem) hitemKey hbelow

theorem stringsKept_of_restoreEnvVarRefs (hunique : incoming.UniqueKeys)
    (h : restoreEnvVarRefs env incoming parsed = .ok result) : StringsKept env incoming parsed result := by
  refine restoreEnvVarRefs_induction (P := fun incoming parsed result => incoming.UniqueKeys →
    StringsKept env incoming parsed result) (fun _ _ _ path text htext => .inl htext) ?_ ?_ ?_ h hunique
  · rintro template - (_ | ⟨_ | i, path⟩) text htext
    · obtain rfl := ConfigValue.string.inj (some.inj htext)
      exact .inr ⟨[], .here _ _, rfl, rfl⟩
    · cases htext
    · cases htext
  · rintro authored items next hnext ih hunique (_ | ⟨_ | i, path⟩) text htext
    · cases htext
    · cases htext
    · obtain ⟨value, hvalue, htext⟩ := ConfigValue.at?_cons_eq_some.mp htext
      have hvalue : next[i]? = some value := hvalue
      have hlt : i < items.length := hnext.length ▸ (List.getElem?_eq_some_iff.mp hvalue).1
      have hitem : items[i]? = some items[i] := List.getElem?_eq_getElem hlt
      obtain ⟨found, hfound, hrestored⟩ := hnext.items i _ hitem
      obtain rfl := mem_unique hvalue hfound
      have hat : ∀ target, (items[i]).at? path = some target →
          (ConfigValue.array items).at? (.index i :: path) = some target :=
        fun target htarget => ConfigValue.at?_cons_eq_some.mpr ⟨_, hitem, htarget⟩
      rcases hrestored with ⟨rfl, -⟩ | ⟨j, source, hj, hsource, hok⟩
      · exact .inl (hat _ htext)
      rcases ih source (mem_of_getElem? hsource) _ _ hok
        (ConfigValue.uniqueKeys_array.mp hunique _ (getElem_mem hlt)) path text htext with
        hsame | ⟨below, hfrom, hbelow, hresolved⟩
      · exact .inl (hat _ hsame)
      · exact .inr ⟨.index j :: below, .item hj hitem hsource hfrom,
          ConfigValue.at?_cons_eq_some.mpr ⟨source, hsource, hbelow⟩, hat _ hresolved⟩
  · intro authored members values hvalues ih hunique
    obtain ⟨hnodup, hmembers⟩ := ConfigValue.uniqueKeys_object.mp hunique
    rintro (_ | ⟨_ | i, path⟩) text htext
    · cases htext
    · rename_i name
      obtain ⟨value, hvalue, htext⟩ := ConfigValue.at?_cons_eq_some.mp htext
      obtain ⟨-, item, hitem, hrestored⟩ := (hvalues.get_iff hnodup).mp hvalue
      have hat : ∀ target, item.at? path = some target →
          (ConfigValue.object members).at? (.key name :: path) = some target :=
        fun target htarget => ConfigValue.at?_cons_eq_some.mpr ⟨item, hitem, htarget⟩
      rcases hrestored with ⟨-, rfl⟩ | ⟨source, hsource, hok⟩
      · exact .inl (hat _ htext)
      · rcases ih _ (mem_of_get hsource) _ _ hok (hmembers _ (mem_of_get hitem)) path text htext with
          hsame | ⟨below, hfrom, hbelow, hresolved⟩
        · exact .inl (hat _ hsame)
        · exact .inr ⟨.key name :: below, .member hitem hsource hfrom,
            ConfigValue.at?_cons_eq_some.mpr ⟨source, hsource, hbelow⟩, hat _ hresolved⟩
    · cases htext

theorem LosesMember.item {items authored : List ConfigValue} {i j : Nat} {item source : ConfigValue}
    (hj : authoredSource env items authored i = some j) (hitem : items[i]? = some item)
    (hsource : authored[j]? = some source) (h : LosesMember env item source) :
    LosesMember env (.array items) (.array authored) := by
  obtain ⟨path, below, members, others, hfrom, hmembers, hothers, hname⟩ := h
  exact ⟨.index i :: path, .index j :: below, members, others, .item hj hitem hsource hfrom,
    ConfigValue.at?_cons_eq_some.mpr ⟨item, hitem, hmembers⟩,
    ConfigValue.at?_cons_eq_some.mpr ⟨source, hsource, hothers⟩, hname⟩

theorem LosesMember.member {members authored : List (JsString × ConfigValue)} {name : JsString}
    {item source : ConfigValue} (hitem : get members name = some item)
    (hsource : get authored name = some source) (h : LosesMember env item source) :
    LosesMember env (.object members) (.object authored) := by
  obtain ⟨path, below, found, others, hfrom, hfound, hothers, hname⟩ := h
  exact ⟨.key name :: path, .key name :: below, found, others, .member hitem hsource hfrom,
    ConfigValue.at?_cons_eq_some.mpr ⟨item, hitem, hfound⟩,
    ConfigValue.at?_cons_eq_some.mpr ⟨source, hsource, hothers⟩, hname⟩

theorem sameShape_of_restoreEnvVarRefs (hunique : incoming.UniqueKeys) (hmembers : ¬LosesMember env incoming parsed)
    (h : restoreEnvVarRefs env incoming parsed = .ok result) : SameShape incoming result := by
  refine restoreEnvVarRefs_induction (P := fun incoming parsed result => incoming.UniqueKeys →
    ¬LosesMember env incoming parsed → SameShape incoming result) (fun _ _ _ _ => rfl)
    (fun _ _ _ => by rw [SameShape, shape, shape]) ?_ ?_ h hunique hmembers
  · intro authored items next hnext ih hunique hmembers
    rw [SameShape, shape, shape]
    congr 1
    refine ext_getElem? fun i => ?_
    rw [getElem?_map, getElem?_map]
    cases hitem : items[i]? with
    | none => rw [getElem?_eq_none (hnext.length ▸ getElem?_eq_none_iff.mp hitem)]
    | some item =>
      obtain ⟨value, hvalue, hrestored⟩ := hnext.items i item hitem
      rw [hvalue]
      rcases hrestored with ⟨rfl, -⟩ | ⟨j, source, hj, hsource, hok⟩
      · rfl
      · have hshape : value.shape = item.shape := ih source (mem_of_getElem? hsource) _ _ hok
          (uniqueKeys_array.mp hunique item (mem_of_getElem? hitem))
          (fun hloses => hmembers (.item hj hitem hsource hloses))
        rw [map_some, map_some, hshape]
  · intro authored members values hvalues ih hunique hmembers
    obtain ⟨hnodup, hbelow⟩ := uniqueKeys_object.mp hunique
    have hproto : PROTO ∉ members.map (·.1) :=
      fun hname => hmembers ⟨[], [], members, authored, .here _ _, rfl, rfl, hname⟩
    rw [SameShape, assignAll_of_nodup (hvalues.keys ▸ hnodup), filter_ne_proto (hvalues.keys ▸ hproto),
      shape, shape]
    congr 1
    refine ext_getElem? fun i => ?_
    rw [getElem?_map, getElem?_map]
    cases hmember : members[i]? with
    | none => rw [getElem?_eq_none (hvalues.length ▸ getElem?_eq_none_iff.mp hmember)]
    | some member =>
      obtain ⟨value, hvalue, hrestored⟩ := hvalues.members i member hmember
      have hmem := mem_of_getElem? hmember
      rw [hvalue]
      rcases hrestored with ⟨-, rfl⟩ | ⟨source, hsource, hok⟩
      · rfl
      · have hshape : value.shape = member.2.shape := ih _ (mem_of_get hsource) _ _ hok (hbelow member hmem)
          (fun hloses => hmembers (.member (get_of_mem hnodup hmem) hsource hloses))
        rw [map_some, map_some, hshape]

theorem get_shape {members others : List (JsString × ConfigValue)}
    (h : (object members).shape = (object others).shape) (name : JsString) :
    (get members name).map shape = (get others name).map shape := by
  rw [shape, shape] at h
  rw [← get_map_snd, ← get_map_snd, object.inj h]

theorem RestoredFrom.restored {path source : List Step} (hfrom : RestoredFrom env incoming parsed path source)
    (hunique : incoming.UniqueKeys) (h : restoreEnvVarRefs env incoming parsed = .ok result)
    (hshape : result.shape = incoming.shape) : ∃ item authored value, incoming.at? path = some item ∧
      parsed.at? source = some authored ∧ item.UniqueKeys ∧ restoreEnvVarRefs env item authored = .ok value ∧
        value.shape = item.shape := by
  induction hfrom generalizing result with
  | here incoming parsed => exact ⟨incoming, parsed, result, rfl, rfl, hunique, h, hshape⟩
  | @item items others i j item authored path source hj hitem hauthored hbelow ih =>
    obtain ⟨next, rfl, hnext⟩ := restoreEnvVarRefs_array h
    obtain ⟨value, hvalue, hrestored⟩ := hnext.items i item hitem
    have hvalueShape : value.shape = item.shape := by
      rw [ConfigValue.shape, ConfigValue.shape] at hshape
      have hat := congrArg (·[i]?) (ConfigValue.array.inj hshape)
      simpa [hvalue, hitem] using hat
    rcases hrestored with ⟨-, hnone⟩ | ⟨j', source', hj', hsource', hok⟩
    · exact absurd hauthored (hnone j authored hj)
    obtain rfl := mem_unique hj hj'
    obtain rfl := mem_unique hauthored hsource'
    obtain ⟨found, other, restored, hfound, hother, hfoundUnique, hrestored, hfoundShape⟩ :=
      ih (ConfigValue.uniqueKeys_array.mp hunique item (mem_of_getElem? hitem)) hok hvalueShape
    exact ⟨found, other, restored, ConfigValue.at?_cons_eq_some.mpr ⟨item, hitem, hfound⟩,
      ConfigValue.at?_cons_eq_some.mpr ⟨authored, hauthored, hother⟩, hfoundUnique, hrestored, hfoundShape⟩
  | @member members others name item authored path source hitem hauthored hbelow ih =>
    obtain ⟨values, rfl, hvalues⟩ := restoreEnvVarRefs_object h
    obtain ⟨hnodup, hmembers⟩ := ConfigValue.uniqueKeys_object.mp hunique
    have hget := get_shape hshape name
    rw [hitem, map_some, map_eq_some_iff] at hget
    obtain ⟨value, hvalue, hvalueShape⟩ := hget
    obtain ⟨-, item', hitem', hrestored⟩ := (hvalues.get_iff hnodup).mp hvalue
    obtain rfl := mem_unique hitem hitem'
    rcases hrestored with ⟨hnone, -⟩ | ⟨source', hsource', hok⟩
    · cases hnone.symm.trans hauthored
    · obtain rfl := mem_unique hauthored hsource'
      obtain ⟨found, other, restored, hfound, hother, hfoundUnique, hrestored, hfoundShape⟩ :=
        ih (hmembers _ (mem_of_get hitem)) hok hvalueShape
      exact ⟨found, other, restored, ConfigValue.at?_cons_eq_some.mpr ⟨item, hitem, hfound⟩,
        ConfigValue.at?_cons_eq_some.mpr ⟨authored, hauthored, hother⟩, hfoundUnique, hrestored, hfoundShape⟩

theorem not_losesMember_of_sameShape (hunique : incoming.UniqueKeys)
    (h : restoreEnvVarRefs env incoming parsed = .ok result) (hshape : SameShape incoming result) :
    ¬LosesMember env incoming parsed := by
  rintro ⟨path, source, members, authored, hfrom, hmembers, hauthored, hname⟩
  obtain ⟨item, other, value, hitem, hother, hitemUnique, hok, hvalueShape⟩ := hfrom.restored hunique h hshape
  obtain rfl := mem_unique hmembers hitem
  obtain rfl := mem_unique hauthored hother
  obtain ⟨values, rfl, hvalues⟩ := restoreEnvVarRefs_object hok
  have hget := get_shape hvalueShape PROTO
  cases hfound : get members PROTO with
  | none => exact get_eq_none_iff.mp hfound hname
  | some found =>
    rw [hfound, map_some, map_eq_some_iff] at hget
    obtain ⟨restored, hrestored, -⟩ := hget
    exact ((hvalues.get_iff (uniqueKeys_object.mp hitemUnique).1).mp hrestored).1 rfl

/-- **References survive a config write**: the parsed config is what its resolved copy is restored to exactly if no
object of it has a key `__proto__`; and what any incoming config is restored to has its shape, its strings or authored
templates for them, and uses no authored entry twice, exactly if no object walked beside an authored one has that
key. -/
theorem refs_survive_iff (env : Env) (parsed : ConfigTree) :
    (restoreEnvVarRefs env (resolveConfigEnvVars env parsed.value) parsed.value = .ok parsed.value ↔
      ¬parsed.value.HasKey PROTO) ∧
    ∀ (incoming : ConfigTree) (result : ConfigValue),
      restoreEnvVarRefs env incoming.value parsed.value = .ok result →
        (SameShape incoming.value result ∧ StringsKept env incoming.value parsed.value result ∧
            RestoredOnce env incoming.value parsed.value ↔
          ¬LosesMember env incoming.value parsed.value) := by
  refine ⟨⟨fun h => ?_, restoreEnvVarRefs_resolveConfigEnvVars env parsed.uniqueKeys⟩,
    fun incoming result h => ⟨?_, ?_⟩⟩
  · exact not_hasKey_of_restoreEnvVarRefs (uniqueKeys_resolveConfigEnvVars env parsed.uniqueKeys)
      (not_hasKey_resolveConfigEnvVars env parsed.uniqueKeys) h
  · exact fun hkept => not_losesMember_of_sameShape incoming.uniqueKeys h hkept.1
  · intro hkey
    exact ⟨sameShape_of_restoreEnvVarRefs incoming.uniqueKeys hkey h,
      stringsKept_of_restoreEnvVarRefs incoming.uniqueKeys h, fun _ _ _ hfrom hfrom' => hfrom.injective hfrom'⟩

/-- A member `__proto__` is lost when the config is resolved, and not put back. -/
theorem references_do_not_survive :
    let config : ConfigValue := .object [(js "__proto__", .string (js "x"))]
    restoreEnvVarRefs (fun _ => none) (resolveConfigEnvVars (fun _ => none) config) config = .ok (.object []) ∧
      restoreEnvVarRefs (fun _ => none) (resolveConfigEnvVars (fun _ => none) config) config ≠ .ok config := by
  intro config
  have hempty : restoreEnvVarRefs (fun _ => none) (resolveConfigEnvVars (fun _ => none) config) config =
      .ok (.object []) := by
    simp only [config, resolveConfigEnvVars, substituteAny, restoreEnvVarRefs]
    rfl
  exact ⟨hempty, by simp [hempty, config]⟩

end Config
end ClawWorks
