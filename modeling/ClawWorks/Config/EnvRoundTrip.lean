import ClawWorks.Config.EnvPreserve

/-!
# A resolved config is put back
-/

namespace ClawWorks

open Except JsMap List
namespace Config

variable {env : Env}

theorem tryResolveString_eq (env : Env) (template : JsString) :
    tryResolveString env template = substituteString env template := by
  rw [substituteString_eq]
  fun_induction tryResolveString env template with
  | case1 => rw [substituteChunks]
  | case2 s name rest h ih =>
    split at h
    · rename_i hescaped
      have htoken : parseEnvTokenAt (DOLLAR :: s) = some ⟨.escaped, name, rest⟩ := by
        rw [parseEnvTokenAt, if_neg (not_not_intro rfl), if_pos hescaped, h]
        rfl
      rw [substituteChunks_of_token htoken, ih]
      rfl
    · cases h
  | case3 s hescaped name rest h ih =>
    split at h
    · rename_i hsubstitution
      have hplain : s.take 2 ≠ [DOLLAR, LBRACE] := by
        intro hdollar
        have hfirst : s.take 1 = [DOLLAR] := by
          rw [show s.take 1 = (s.take 2).take 1 by rw [take_take]; rfl, hdollar]
          rfl
        exact absurd (hsubstitution.symm.trans hfirst) (by decide)
      have htoken : parseEnvTokenAt (DOLLAR :: s) = some ⟨.substitution, name, rest⟩ := by
        rw [parseEnvTokenAt, if_neg (not_not_intro rfl), if_neg hplain, if_pos hsubstitution, h]
        rfl
      rw [substituteChunks_of_token htoken, ih]
      rfl
    · cases h
  | case4 s hescaped hsubstitution ih =>
    have hnone : parseEnvTokenAt (DOLLAR :: s) = none := by
      rw [parseEnvTokenAt, if_neg (not_not_intro rfl)]
      split
      · rw [dif_pos ‹_›] at hescaped
        rw [hescaped]
        rfl
      · split
        · rw [dif_pos ‹_›] at hsubstitution
          rw [hsubstitution]
          rfl
        · rfl
    rw [substituteChunks_of_none hnone, ih]
  | case5 u s hu ih =>
    have hnone : parseEnvTokenAt (u :: s) = none := by rw [parseEnvTokenAt, if_pos hu]
    rw [substituteChunks_of_none hnone, ih]

theorem hasEnvVarRef_of_token {s : JsString} {token : EnvToken} (h : parseEnvTokenAt s = some token) :
    hasEnvVarRef s := by
  cases s with
  | nil => cases h
  | cons u s =>
    rw [parseEnvTokenAt] at h
    split at h
    · cases h
    rename_i hu
    split at h
    · rename_i hescaped
      obtain ⟨s, rfl⟩ : ∃ rest, s = DOLLAR :: LBRACE :: rest :=
        ⟨s.drop 2, by rw [← take_append_drop 2 s, hescaped]; rfl⟩
      obtain ⟨found, hfound, -⟩ := Option.map_eq_some_iff.mp h
      have hname : envName? s = some found := hfound
      simp [hasEnvVarRef, hname]
    · split at h
      · rename_i hsubstitution
        obtain ⟨found, hfound, -⟩ := Option.map_eq_some_iff.mp h
        rw [hasEnvVarRef, not_not.mp hu, hsubstitution, hfound]
        rfl
      · cases h

theorem substituteString_of_not_hasEnvVarRef (env : Env) {text : JsString} (h : hasEnvVarRef text = false) :
    substituteString env text = text := by
  rw [substituteString_eq]
  induction text with
  | nil => rw [substituteChunks]
  | cons u s ih =>
    cases htoken : parseEnvTokenAt (u :: s) with
    | some token => rw [hasEnvVarRef_of_token htoken] at h; cases h
    | none =>
      rw [hasEnvVarRef, Bool.or_eq_false_iff] at h
      rw [substituteChunks_of_none htoken, ih h.2]

theorem resolveEnvVarRefsForComparison_eq {value : ConfigValue} (h : value.UniqueKeys) (hproto : ¬value.HasKey PROTO) :
    resolveEnvVarRefsForComparison env value = resolveConfigEnvVars env value := by
  rw [resolveConfigEnvVars]
  induction value with
  | object members ih =>
    obtain ⟨hnodup, hmembers⟩ := ConfigValue.uniqueKeys_object.mp h
    obtain ⟨hkeys, hbelow⟩ := not_or.mp (mt ConfigValue.hasKey_object.mpr hproto)
    rw [resolveEnvVarRefsForComparison, substituteAny, assignAll_map hnodup, filter_ne_proto hkeys,
      setAll_of_nodup (by rwa [nil_append, map_map]), nil_append]
    congr 1
    refine map_congr_left fun member hmember => ?_
    rw [ih member hmember (hmembers member hmember) fun hkey => hbelow ⟨member, hmember, hkey⟩]
  | array items ih =>
    rw [resolveEnvVarRefsForComparison, substituteAny]
    congr 1
    refine map_congr_left fun item hitem => ih item hitem (ConfigValue.uniqueKeys_array.mp h item hitem) ?_
    exact fun hkey => hproto (ConfigValue.hasKey_array.mpr ⟨item, hitem, hkey⟩)
  | string text =>
    rw [resolveEnvVarRefsForComparison, substituteAny]
    split
    · rw [tryResolveString_eq]
    · rw [substituteString_of_not_hasEnvVarRef env (Bool.not_eq_true _ ▸ ‹_›)]
  | number | boolean | null => rw [resolveEnvVarRefsForComparison, substituteAny]

theorem matchesArrayElementAtSameIndex_resolved {value : ConfigValue} (h : value.UniqueKeys)
    (hproto : ¬value.HasKey PROTO) :
    matchesArrayElementAtSameIndex env (resolveConfigEnvVars env value) value := by
  rw [matchesArrayElementAtSameIndex, resolveEnvVarRefsForComparison_eq h hproto,
    ConfigValue.isDeepStrictEqual_self (uniqueKeys_resolveConfigEnvVars env h), Bool.or_true]

def EnvRefCounts.UniqueKeys (counts : EnvRefCounts) : Prop :=
  (counts.map (·.1)).Nodup ∧ ∀ row ∈ counts, (row.2.map (·.1)).Nodup

theorem uniqueKeys_countRef {counts : EnvRefCounts} (h : counts.UniqueKeys) (ref : JsString × List JsString) :
    (countRef counts ref).UniqueKeys := by
  refine ⟨nodup_set h.1 _ _, fun row hrow => ?_⟩
  rcases mem_set hrow with rfl | hold
  · refine nodup_set ?_ _ _
    cases hfound : get counts ref.1 with
    | none => exact nodup_nil
    | some pathCounts => exact h.2 _ (mem_of_get hfound)
  · exact h.2 row hold

theorem uniqueKeys_countAuthoredEnvRefsByPath (value : ConfigValue) (kind : AuthoredEnvRefKind) :
    (countAuthoredEnvRefsByPath (some value) kind).UniqueKeys := by
  have hfold : ∀ (refs : List (JsString × List JsString)) (counts : EnvRefCounts), counts.UniqueKeys →
      EnvRefCounts.UniqueKeys (refs.foldl countRef counts) := by
    intro refs
    induction refs with
    | nil => exact fun _ h => h
    | cons ref refs ih => exact fun counts h => ih _ (uniqueKeys_countRef h ref)
  exact hfold _ [] ⟨nodup_nil, nofun⟩

theorem preservesAuthoredEscapedEnvRefs_self (value : ConfigValue) : preservesAuthoredEscapedEnvRefs value value := by
  have hunique := uniqueKeys_countAuthoredEnvRefsByPath value .escaped
  simp only [preservesAuthoredEscapedEnvRefs, all_eq_true]
  rintro ⟨name, pathCounts⟩ hrow ⟨path, count⟩ hcount
  have hat : (countAuthoredEnvRefsByPath (some value) .escaped).at name path = count := by
    rw [EnvRefCounts.at, get_of_mem hunique.1 hrow, Option.bind_some,
      get_of_mem (hunique.2 _ hrow) hcount, Option.getD_some]
  exact decide_eq_true hat.ge

section Arrays

variable {parsed : List ConfigValue}

theorem matchesEverywhere_resolved (env : Env) (h : ∀ item ∈ parsed, item.UniqueKeys)
    (hproto : ∀ item ∈ parsed, ¬item.HasKey PROTO) :
    matchesEverywhere env (parsed.map fun item => resolveConfigEnvVars env item) parsed := by
  rw [matchesEverywhere, length_map, beq_self_eq_true, Bool.true_and, all_eq_true]
  rintro ⟨item, index⟩ hentry
  have hitem : parsed[index]? = some item := mem_zipIdx_iff_getElem?.mp hentry
  have hmem := mem_of_getElem? hitem
  rw [matchesAt, getElem?_map, hitem, Option.map_some, Option.any_some]
  exact matchesArrayElementAtSameIndex_resolved (h item hmem) (hproto item hmem)

theorem matchArrayItems_resolved (env : Env) (h : ∀ item ∈ parsed, item.UniqueKeys)
    (hproto : ∀ item ∈ parsed, ¬item.HasKey PROTO) :
    ∃ matched, matchArrayItems env (parsed.map fun item => resolveConfigEnvVars env item) parsed = .ok matched ∧
      (∀ entry ∈ matched, entry.2 = entry.1) ∧ ∀ index item, parsed[index]? = some item →
        containsAuthoredTemplate item → JsMap.get matched index = some index := by
  have heverywhere := matchesEverywhere_resolved env h hproto
  have hdiagonal : ∀ (entries : List (ConfigValue × Nat)) (old : JsMap Nat Nat), (∀ entry ∈ old, entry.2 = entry.1) →
      ∀ entry ∈ JsMap.setAll old (entries.map fun entry => (entry.2, entry.2)), entry.2 = entry.1 := by
    intro entries old hold entry hentry
    rcases mem_setAll hentry with hnew | hentry
    · obtain ⟨item, -, rfl⟩ := mem_map.mp hnew
      rfl
    · exact hold entry hentry
  have hunescaped : matchAuthoredTemplateArrayItems env (parsed.map fun item => resolveConfigEnvVars env item) parsed =
      .ok (setAll [] ((templateItems parsed).map fun entry => (entry.2, entry.2))) := if_pos heverywhere
  have hescaped : ∀ used, matchAuthoredEscapedTemplateArrayItems env
      (parsed.map fun item => resolveConfigEnvVars env item) parsed used =
        .ok (setAll [] ((escapedTemplateItems parsed).map fun entry => (entry.2, entry.2))) :=
    fun _ => if_pos heverywhere
  have hentries : ∀ entry ∈ setAll (setAll [] ((templateItems parsed).map fun entry => (entry.2, entry.2)))
      (setAll [] ((escapedTemplateItems parsed).map fun entry => (entry.2, entry.2))), entry.2 = entry.1 := by
    intro entry hentry
    rcases mem_setAll hentry with hnew | hold
    · exact hdiagonal _ [] nofun entry hnew
    · exact hdiagonal _ [] nofun entry hold
  refine ⟨_, bind_eq_ok.mpr ⟨_, hunescaped, bind_eq_ok.mpr ⟨_, hescaped _, rfl⟩⟩, hentries,
    fun index item hitem htemplate => ?_⟩
  have hmem : (item, index) ∈ parsed.zipIdx := mem_zipIdx_iff_getElem?.mpr hitem
  have hfound : (get (setAll (setAll [] ((templateItems parsed).map fun entry => (entry.2, entry.2)))
      (setAll [] ((escapedTemplateItems parsed).map fun entry => (entry.2, entry.2)))) index).isSome := by
    refine isSome_get_setAll ?_
    cases hunescapedItem : containsAuthoredUnescapedEnvTemplate item with
    | true =>
      refine .inr (isSome_get_setAll (.inl ?_))
      rw [map_map]
      exact mem_map.mpr ⟨_, mem_filter.mpr ⟨hmem, hunescapedItem⟩, rfl⟩
    | false =>
      rw [containsAuthoredTemplate, hunescapedItem, Bool.false_or] at htemplate
      have hsome : (get (setAll []
          ((escapedTemplateItems parsed).map fun entry => (entry.2, entry.2))) index).isSome := by
        refine isSome_get_setAll (.inl ?_)
        rw [map_map]
        refine mem_map.mpr ⟨_, mem_filter.mpr ⟨hmem, ?_⟩, rfl⟩
        rw [htemplate, hunescapedItem]
        rfl
      obtain ⟨value, hvalue⟩ := Option.isSome_iff_exists.mp hsome
      exact .inl (mem_map.mpr ⟨_, mem_of_get hvalue, rfl⟩)
  obtain ⟨value, hvalue⟩ := Option.isSome_iff_exists.mp hfound
  have hvalueIndex : value = index := hentries _ (mem_of_get hvalue)
  rw [hvalue, hvalueIndex]

theorem authoredIndex?_of_diagonal {matched : JsMap Nat Nat} (hentries : ∀ entry ∈ matched, entry.2 = entry.1)
    (htemplates : ∀ index item, parsed[index]? = some item → containsAuthoredTemplate item →
      JsMap.get matched index = some index) {index : Nat} {item : ConfigValue} (hitem : parsed[index]? = some item) :
    authoredIndex? parsed matched index = some index := by
  rw [authoredIndex?]
  cases hfound : JsMap.get (matchedParsedIndexByIncoming matched) index with
  | some parsedIndex =>
    rcases mem_setAll (mem_of_get hfound) with hswapped | hnil
    · obtain ⟨entry, hentry, heq⟩ := mem_map.mp hswapped
      cases heq
      rw [hentries entry hentry]
    · cases hnil
  | none =>
    have hplain : containsAuthoredTemplate item = false := by
      cases htemplate : containsAuthoredTemplate item with
      | false => rfl
      | true =>
        have hentry := mem_of_get (htemplates index item hitem htemplate)
        have hsome : (get (matchedParsedIndexByIncoming matched) index).isSome :=
          isSome_get_setAll (.inl (mem_map.mpr ⟨_, mem_map_of_mem hentry, rfl⟩))
        rw [hfound] at hsome
        cases hsome
    simp [hitem, hplain]

theorem restoreArray_resolved (h : ∀ item ∈ parsed, item.UniqueKeys) (hproto : ∀ item ∈ parsed, ¬item.HasKey PROTO)
    {restore : ConfigValue → Restorer}
    (hrestore : ∀ item ∈ parsed, restore item (resolveConfigEnvVars env item) = .ok item) :
    restoreArray env (parsed.map fun item => resolveConfigEnvVars env item) parsed (parsed.map restore) =
      .ok parsed := by
  have hitems : ∀ source : Nat → Option Nat, (∀ index item, parsed[index]? = some item → source index = some index) →
      ((parsed.map fun item => resolveConfigEnvVars env item).zipIdx.mapM fun entry =>
        restoreAt (parsed.map restore) (source entry.2) entry.1) = .ok parsed := by
    intro source hsource
    rw [mapM_zipIdx_eq_ok_iff fun index item => restoreAt (parsed.map restore) (source index) item]
    refine ⟨(length_map _).symm, fun index resolved hresolved => ?_⟩
    rw [getElem?_map, Option.map_eq_some_iff] at hresolved
    obtain ⟨item, hitem, rfl⟩ := hresolved
    refine ⟨item, hitem, ?_⟩
    rw [restoreAt, hsource index item hitem, Option.bind_some, getElem?_map, hitem]
    exact hrestore item (mem_of_getElem? hitem)
  rw [restoreArray]
  split
  · refine hitems (fun index => if index < parsed.length then some index else none) fun index item hitem => ?_
    exact if_pos (List.getElem?_eq_some_iff.mp hitem).1
  · obtain ⟨matched, hmatched, hentries, htemplates⟩ := matchArrayItems_resolved env h hproto
    refine bind_eq_ok.mpr ⟨matched, hmatched, bind_eq_ok.mpr ⟨parsed, hitems _ ?_, ?_⟩⟩
    · exact fun index item hitem => authoredIndex?_of_diagonal hentries htemplates hitem
    · refine bind_eq_ok.mpr ⟨(), ?_, rfl⟩
      rw [checkEscapedRefs, forM_eq_ok_iff]
      rintro ⟨item, index⟩ hentry
      have hitem : parsed[index]? = some item := mem_zipIdx_iff_getElem?.mp hentry
      cases hescaped : containsAuthoredEscapedEnvTemplate item with
      | false => simp [hescaped]
      | true =>
        have htemplate : containsAuthoredTemplate item := by
          rw [containsAuthoredTemplate, hescaped, Bool.or_true]
        simp [htemplates index item hitem htemplate, hitem, preservesAuthoredEscapedEnvRefs_self]

end Arrays

/-- **The round trip**: a config none of whose objects has a key `__proto__` is what its resolved copy is restored
to. -/
theorem restoreEnvVarRefs_resolveConfigEnvVars (env : Env) {value : ConfigValue} (h : value.UniqueKeys)
    (hproto : ¬value.HasKey PROTO) : restoreEnvVarRefs env (resolveConfigEnvVars env value) value = .ok value := by
  induction value with
  | object members ih =>
    obtain ⟨hnodup, hmembers⟩ := ConfigValue.uniqueKeys_object.mp h
    obtain ⟨hkeys, hbelow⟩ := not_or.mp (mt ConfigValue.hasKey_object.mpr hproto)
    rw [resolveConfigEnvVars, substituteAny, assignAll_map hnodup, filter_ne_proto hkeys, restoreEnvVarRefs]
    refine bind_eq_ok.mpr ⟨members, bind_eq_ok.mpr ⟨members, ?_, ?_⟩, rfl⟩
    · rw [mapM_eq_ok_iff_getElem?]
      refine ⟨(length_map _).symm, fun i resolved hresolved => ?_⟩
      rw [getElem?_map, Option.map_eq_some_iff] at hresolved
      obtain ⟨member, hmember, rfl⟩ := hresolved
      have hmem := mem_of_getElem? hmember
      refine ⟨member, hmember, ?_⟩
      have hget : get (members.map fun member => (member.1, fun value => restoreEnvVarRefs env value member.2))
          member.1 = some fun value => restoreEnvVarRefs env value member.2 :=
        get_of_mem (by rwa [map_map]) (mem_map.mpr ⟨member, hmem, rfl⟩)
      dsimp only
      rw [hget]
      have hvalue := ih member hmem (hmembers member hmem) fun hkey => hbelow ⟨member, hmem, hkey⟩
      exact bind_eq_ok.mpr ⟨member.2, hvalue, rfl⟩
    · rw [assignAll_of_nodup hnodup, filter_ne_proto hkeys]
  | array items ih =>
    have hitems := ConfigValue.uniqueKeys_array.mp h
    have hkeys : ∀ item ∈ items, ¬item.HasKey PROTO :=
      fun item hitem hkey => hproto (ConfigValue.hasKey_array.mpr ⟨item, hitem, hkey⟩)
    rw [resolveConfigEnvVars, substituteAny, restoreEnvVarRefs]
    refine bind_eq_ok.mpr ⟨items, restoreArray_resolved hitems hkeys ?_, rfl⟩
    exact fun item hitem => ih item hitem (hitems item hitem) (hkeys item hitem)
  | string text =>
    rw [resolveConfigEnvVars, substituteAny, restoreEnvVarRefs, tryResolveString_eq]
    cases href : hasEnvVarRef text with
    | true => simp
    | false => simp [substituteString_of_not_hasEnvVarRef env href]
  | number | boolean | null => rw [resolveConfigEnvVars, substituteAny, restoreEnvVarRefs] <;> simp

end Config
end ClawWorks
