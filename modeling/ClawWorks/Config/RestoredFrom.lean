import ClawWorks.Config.EnvRoundTrip

/-!
# Where the parts of a restored config come from
-/

namespace ClawWorks

open Except JsMap Option List
namespace Config

variable {env : Env}

/-! ## Matches -/

section Matches

variable {incoming parsed : List ConfigValue}

/-- An authored item with references and an incoming one. -/
def PlacedEntry (incoming parsed : List ConfigValue) (entry : Nat × Nat) : Prop :=
  (∃ item, parsed[entry.1]? = some item ∧ containsAuthoredTemplate item = true) ∧ entry.2 < incoming.length

structure Placed (incoming parsed : List ConfigValue) (matched : JsMap Nat Nat) : Prop where
  nodup : (matched.map (·.1)).Nodup
  entries : ∀ entry ∈ matched, PlacedEntry incoming parsed entry

theorem placed_nil : Placed incoming parsed [] := ⟨nodup_nil, nofun⟩

variable {matched : JsMap Nat Nat} {parsedIndex incomingIndex : Nat}

theorem Placed.set (h : Placed incoming parsed matched)
    (hentry : PlacedEntry incoming parsed (parsedIndex, incomingIndex)) :
    Placed incoming parsed (matched.set parsedIndex incomingIndex) := by
  refine ⟨nodup_set h.nodup _ _, fun found hfound => ?_⟩
  rcases mem_set hfound with rfl | hold
  · exact hentry
  · exact h.entries found hold

theorem Placed.setAll (h : Placed incoming parsed matched) {entries : List (Nat × Nat)}
    (hentries : ∀ entry ∈ entries, PlacedEntry incoming parsed entry) :
    Placed incoming parsed (setAll matched entries) := by
  refine ⟨nodup_setAll h.nodup _, fun found hfound => ?_⟩
  rcases mem_setAll hfound with hnew | hold
  · exact hentries found hnew
  · exact h.entries found hold

variable {index : Nat}

theorem lt_of_mem_indexesWithIdentity {items : List ConfigValue} {path : ArrayIdentityPath}
    {identityValue : Option ConfigValue} (h : index ∈ indexesWithIdentity items path identityValue) :
    index < items.length := by
  obtain ⟨⟨item, i⟩, hentry, rfl⟩ := List.mem_map.mp h
  exact (List.getElem?_eq_some_iff.mp (List.mem_zipIdx_iff_getElem?.mp (List.mem_of_mem_filter hentry))).1

variable {parsedItem : ConfigValue}

theorem lt_of_matchIdentityPaths {paths : List ArrayIdentityPath} {found : Option Nat}
    {unique : Bool} (hfound : ∀ i ∈ found, i < incoming.length)
    (h : matchIdentityPaths incoming parsed parsedItem paths found unique = .found index) :
    index < incoming.length := by
  induction paths generalizing found unique with
  | nil =>
    cases found with
    | some i =>
      cases h
      exact hfound _ rfl
    | none =>
      rw [matchIdentityPaths] at h
      split at h <;> cases h
  | cons path paths ih =>
    rw [matchIdentityPaths] at h
    split at h
    · exact ih hfound h
    split at h
    · rename_i i hindexes
      split at h
      · cases h
      · refine ih ?_ h
        rintro _ ⟨⟩
        exact lt_of_mem_indexesWithIdentity (hindexes ▸ mem_singleton_self i)
    · cases h

theorem lt_of_resolveStableArrayIdentityMatch
    (h : resolveStableArrayIdentityMatch incoming parsed parsedItem = .found index) : index < incoming.length := by
  rw [resolveStableArrayIdentityMatch] at h
  split at h
  · cases h
  · exact lt_of_matchIdentityPaths (fun _ hi => by cases hi) h

theorem lt_of_matchesAt (h : matchesAt env incoming index parsedItem) : index < incoming.length := by
  rw [matchesAt, Option.any_eq_true] at h
  obtain ⟨item, hitem, -⟩ := h
  exact (List.getElem?_eq_some_iff.mp hitem).1

theorem lt_of_isEditInPlace {parsedIndex : Nat}
    (h : isEditInPlace env incoming parsed parsedItem parsedIndex) (hparsed : parsedIndex < parsed.length) :
    parsedIndex < incoming.length := by
  have hlength : incoming.length = parsed.length := by
    simp only [isEditInPlace, hasStableSameIndexLiteralShape, hasStableSameIndexNeighbors, Bool.or_eq_true,
      Bool.and_eq_true, beq_iff_eq] at h
    omega
  exact hlength ▸ hparsed

variable {st st' : Alignment}

theorem addMatch_eq_ok (h : addMatch st parsedIndex incomingIndex = .ok st') :
    st'.matched = st.matched.set parsedIndex incomingIndex := by
  rw [addMatch] at h
  split at h
  · cases h
  · rw [← ok.inj h]

theorem matchTemplateItem_eq_ok {parsedIndex : Nat}
    (h : matchTemplateItem env incoming parsed st parsedItem parsedIndex = .ok st')
    (hparsed : parsedIndex < parsed.length) : st' = st ∨ ∃ incomingIndex, incomingIndex < incoming.length ∧
      st'.matched = st.matched.set parsedIndex incomingIndex := by
  rw [matchTemplateItem] at h
  split at h
  · cases h
  · exact .inr ⟨_, lt_of_resolveStableArrayIdentityMatch ‹_›, addMatch_eq_ok h⟩
  · split at h
    · split at h
      · exact .inr ⟨_, lt_of_matchesAt ‹_›, addMatch_eq_ok h⟩
      · cases h
    · split at h
      · split at h
        · exact .inr ⟨_, lt_of_isEditInPlace ‹_› hparsed, addMatch_eq_ok h⟩
        · cases h
      · split at h
        · cases h
        · split at h
          · exact .inr ⟨_, ‹_›, addMatch_eq_ok h⟩
          · exact .inl (ok.inj h).symm

theorem matchEscapedTemplateItem_eq_ok {parsedIndex : Nat}
    (h : matchEscapedTemplateItem env incoming parsed st parsedItem parsedIndex = .ok st') :
    st' = st ∨ ∃ incomingIndex, incomingIndex < incoming.length ∧
      st'.matched = st.matched.set parsedIndex incomingIndex := by
  rw [matchEscapedTemplateItem] at h
  dsimp only at h
  split at h
  · exact .inr ⟨_, lt_of_resolveStableArrayIdentityMatch ‹_›, addMatch_eq_ok h⟩
  split at h
  · rename_i first rest hmatches
    split at h
    · refine .inr ⟨_, ?_, addMatch_eq_ok h⟩
      have hmem : (if parsedIndex ∈ first :: rest then parsedIndex else first) ∈ first :: rest := by
        split
        · assumption
        · exact mem_cons_self
      rw [← hmatches] at hmem
      obtain ⟨⟨item, i⟩, hentry, heq⟩ := mem_map.mp hmem
      rw [← heq]
      exact (List.getElem?_eq_some_iff.mp (List.mem_zipIdx_iff_getElem?.mp (List.mem_of_mem_filter hentry))).1
    · cases h
  · split at h
    · rename_i hplace
      simp only [Bool.and_eq_true, decide_eq_true_eq] at hplace
      exact .inr ⟨_, hplace.1.1.2, addMatch_eq_ok h⟩
    · exact .inl (ok.inj h).symm

variable {entries : List (ConfigValue × Nat)}

theorem placed_foldlM {round : Alignment → ConfigValue × Nat → Except EnvRefArrayMutationError Alignment}
    (hentries : ∀ entry ∈ entries, parsed[entry.2]? = some entry.1 ∧ containsAuthoredTemplate entry.1)
    (hround : ∀ st st' entry, entry ∈ entries → round st entry = .ok st' → st' = st ∨
      ∃ incomingIndex, incomingIndex < incoming.length ∧ st'.matched = st.matched.set entry.2 incomingIndex)
    (hst : Placed incoming parsed st.matched) (h : entries.foldlM round st = .ok st') :
    Placed incoming parsed st'.matched := by
  induction entries generalizing st with
  | nil =>
    obtain rfl := ok.inj h
    exact hst
  | cons entry entries ih =>
    rw [foldlM_cons, bind_eq_ok] at h
    obtain ⟨next, hnext, hrest⟩ := h
    refine ih (fun e he => hentries e (mem_cons_of_mem _ he))
      (fun s s' e he => hround s s' e (mem_cons_of_mem _ he)) ?_ hrest
    obtain ⟨hitem, htemplate⟩ := hentries entry mem_cons_self
    rcases hround st next entry mem_cons_self hnext with rfl | ⟨incomingIndex, hlt, hset⟩
    · exact hst
    · rw [hset]
      exact hst.set ⟨⟨entry.1, hitem, htemplate⟩, hlt⟩

theorem length_earliestParsedIndexes {fits : Nat → Nat → Bool} {count : Nat} {incomingIndexes : List Nat} {next : Nat}
    {found : List Nat} (h : earliestParsedIndexes fits count incomingIndexes next = some found) :
    found.length = incomingIndexes.length := by
  induction incomingIndexes generalizing next found with
  | nil =>
    obtain rfl := some.inj h
    rfl
  | cons i incomingIndexes ih =>
    obtain ⟨parsedIndex, -, hrest⟩ := bind_eq_some_iff.mp h
    obtain ⟨later, hlater, heq⟩ := bind_eq_some_iff.mp hrest
    obtain rfl := some.inj heq
    rw [length_cons, ih hlater, length_cons]

theorem lt_of_matchUniqueRetainedArrayItems {retained : JsMap Nat Nat}
    (h : matchUniqueRetainedArrayItems env incoming parsed = some retained)
    (hfound : get retained parsedIndex = some incomingIndex) : incomingIndex < incoming.length := by
  rw [matchUniqueRetainedArrayItems] at h
  split at h
  · cases h
  obtain ⟨earliest, hearliest, h⟩ := bind_eq_some_iff.mp h
  obtain ⟨latest, -, h⟩ := bind_eq_some_iff.mp h
  split at h
  · obtain rfl := some.inj h
    rcases mem_setAll (mem_of_get hfound) with hmem | hnil
    · have hlength := length_earliestParsedIndexes hearliest
      rw [List.length_range] at hlength
      exact hlength ▸ (List.getElem?_eq_some_iff.mp (List.mem_zipIdx_iff_getElem?.mp hmem)).1
    · cases hnil
  · cases h

variable {entry : ConfigValue × Nat}

theorem mem_templateItems (h : entry ∈ templateItems parsed) :
    parsed[entry.2]? = some entry.1 ∧ containsAuthoredTemplate entry.1 := by
  obtain ⟨hmem, htemplate⟩ := mem_filter.mp h
  exact ⟨mem_zipIdx_iff_getElem?.mp hmem, by rw [containsAuthoredTemplate, htemplate, Bool.true_or]⟩

theorem mem_escapedTemplateItems (h : entry ∈ escapedTemplateItems parsed) :
    parsed[entry.2]? = some entry.1 ∧ containsAuthoredTemplate entry.1 := by
  obtain ⟨hmem, htemplate⟩ := mem_filter.mp h
  rw [Bool.and_eq_true] at htemplate
  exact ⟨mem_zipIdx_iff_getElem?.mp hmem, by rw [containsAuthoredTemplate, htemplate.1, Bool.or_true]⟩

theorem placed_diagonal (heverywhere : matchesEverywhere env incoming parsed)
    (hentries : ∀ entry ∈ entries, parsed[entry.2]? = some entry.1 ∧ containsAuthoredTemplate entry.1) :
    Placed incoming parsed (setAll [] (entries.map fun entry => (entry.2, entry.2))) := by
  refine placed_nil.setAll fun entry hentry => ?_
  obtain ⟨found, hfound, rfl⟩ := mem_map.mp hentry
  obtain ⟨hitem, htemplate⟩ := hentries found hfound
  rw [matchesEverywhere, Bool.and_eq_true, beq_iff_eq] at heverywhere
  exact ⟨⟨found.1, hitem, htemplate⟩, heverywhere.1 ▸ (List.getElem?_eq_some_iff.mp hitem).1⟩

theorem placed_matchAuthoredTemplateArrayItems
    (h : matchAuthoredTemplateArrayItems env incoming parsed = .ok matched) : Placed incoming parsed matched := by
  rw [matchAuthoredTemplateArrayItems] at h
  split at h
  · obtain rfl := ok.inj h
    exact placed_diagonal ‹_› fun entry hentry => mem_templateItems hentry
  · split at h
    · rename_i retained hretained
      obtain rfl := ok.inj h
      refine placed_nil.setAll fun entry hentry => ?_
      obtain ⟨found, hfound, hmap⟩ := mem_filterMap.mp hentry
      obtain ⟨incomingIndex, hget, rfl⟩ := map_eq_some_iff.mp hmap
      obtain ⟨hitem, htemplate⟩ := mem_templateItems hfound
      exact ⟨⟨found.1, hitem, htemplate⟩, lt_of_matchUniqueRetainedArrayItems hretained hget⟩
    · obtain ⟨st, hst, heq⟩ := bind_eq_ok.mp h
      obtain rfl := ok.inj heq
      refine placed_foldlM (fun entry hentry => mem_templateItems hentry) (fun s s' entry hentry hround => ?_)
        placed_nil hst
      exact matchTemplateItem_eq_ok hround (List.getElem?_eq_some_iff.mp (mem_templateItems hentry).1).1

theorem placed_matchAuthoredEscapedTemplateArrayItems {used : List Nat}
    (h : matchAuthoredEscapedTemplateArrayItems env incoming parsed used = .ok matched) :
    Placed incoming parsed matched := by
  rw [matchAuthoredEscapedTemplateArrayItems] at h
  split at h
  · obtain rfl := ok.inj h
    exact placed_diagonal ‹_› fun entry hentry => mem_escapedTemplateItems hentry
  · split at h
    · rename_i retained hretained
      obtain ⟨found, hcollect, heq⟩ := bind_eq_ok.mp h
      obtain rfl := ok.inj heq
      refine placed_nil.setAll fun entry hentry => ?_
      obtain ⟨authored, hauthored, hget⟩ := mem_of_collect hcollect hentry
      obtain ⟨hitem, htemplate⟩ := mem_escapedTemplateItems hauthored
      split at hget
      · rename_i incomingIndex hindex
        split at hget
        · cases hget
        · cases hget
          exact ⟨⟨authored.1, hitem, htemplate⟩, lt_of_matchUniqueRetainedArrayItems hretained hindex⟩
      · cases hget
    · obtain ⟨st, hst, heq⟩ := bind_eq_ok.mp h
      obtain rfl := ok.inj heq
      refine placed_foldlM (fun entry hentry => mem_escapedTemplateItems hentry) (fun s s' entry _ hround => ?_)
        placed_nil hst
      exact matchEscapedTemplateItem_eq_ok hround

theorem placed_matchArrayItems (h : matchArrayItems env incoming parsed = .ok matched) :
    Placed incoming parsed matched := by
  obtain ⟨unescaped, hunescaped, h⟩ := bind_eq_ok.mp h
  obtain ⟨escaped, hescaped, heq⟩ := bind_eq_ok.mp h
  obtain rfl := ok.inj heq
  exact (placed_matchAuthoredTemplateArrayItems hunescaped).setAll
    (placed_matchAuthoredEscapedTemplateArrayItems hescaped).entries

theorem authoredIndex?_eq_some {index parsedIndex : Nat}
    (h : authoredIndex? parsed matched index = some parsedIndex) : (parsedIndex, index) ∈ matched ∨
      index = parsedIndex ∧ ∃ item, parsed[parsedIndex]? = some item ∧ containsAuthoredTemplate item = false := by
  rw [authoredIndex?] at h
  split at h
  · rename_i found hfound
    obtain rfl := some.inj h
    rcases mem_setAll (mem_of_get hfound) with hmem | hnil
    · obtain ⟨entry, hentry, heq⟩ := mem_map.mp hmem
      cases heq
      exact .inl hentry
    · cases hnil
  · split at h
    · rename_i hplain
      obtain rfl := Option.some.inj h
      rw [Option.any_eq_true] at hplain
      obtain ⟨item, hitem, hplain⟩ := hplain
      exact .inr ⟨rfl, item, hitem, by simpa using hplain⟩
    · cases h

theorem authoredSource_injective {index index' parsedIndex : Nat}
    (h : authoredSource env incoming parsed index = some parsedIndex)
    (h' : authoredSource env incoming parsed index' = some parsedIndex) : index = index' := by
  rw [authoredSource] at h h'
  by_cases hplain : (parsed.any containsAuthoredTemplate) = false
  · rw [if_pos hplain, ite_none_right_eq_some] at h h'
    exact (some.inj h.2).trans (some.inj h'.2).symm
  · rw [if_neg hplain] at h h'
    cases hmatched : matchArrayItems env incoming parsed with
    | error e => rw [hmatched] at h; cases h
    | ok matched =>
      rw [hmatched] at h h'
      have hplaced := placed_matchArrayItems hmatched
      have hnot : ∀ i, (parsedIndex, i) ∈ matched → ∀ item, parsed[parsedIndex]? = some item →
          containsAuthoredTemplate item ≠ false := by
        intro i hmem item hitem hfalse
        obtain ⟨⟨found, hfound, htemplate⟩, -⟩ := hplaced.entries _ hmem
        obtain rfl := mem_unique hitem hfound
        rw [hfalse] at htemplate
        cases htemplate
      rcases authoredIndex?_eq_some h with hmem | ⟨rfl, item, hitem, hfalse⟩
      · rcases authoredIndex?_eq_some h' with hmem' | ⟨-, item, hitem, hfalse⟩
        · have hget := get_of_mem hplaced.nodup hmem
          exact mem_unique hget (get_of_mem hplaced.nodup hmem')
        · exact absurd hfalse (hnot _ hmem item hitem)
      · rcases authoredIndex?_eq_some h' with hmem' | ⟨heq, -⟩
        · exact absurd hfalse (hnot _ hmem' item hitem)
        · exact heq.symm

end Matches

/-! ## One level of the walk -/

structure ItemsRestored (env : Env) (incoming parsed next : List ConfigValue) : Prop where
  length : next.length = incoming.length
  items : ∀ (i : Nat) (item : ConfigValue), incoming[i]? = some item → ∃ value, next[i]? = some value ∧
    ((value = item ∧ ∀ j authored, authoredSource env incoming parsed i = some j → parsed[j]? ≠ some authored) ∨
      ∃ j authored, authoredSource env incoming parsed i = some j ∧ parsed[j]? = some authored ∧
        restoreEnvVarRefs env item authored = .ok value)

/-- A member: as it came where its key is new, else restored from the authored one. -/
def MemberRestored (env : Env) (parsed : List (JsString × ConfigValue)) (name : JsString)
    (item value : ConfigValue) : Prop :=
  (get parsed name = none ∧ value = item) ∨
    ∃ authored, get parsed name = some authored ∧ restoreEnvVarRefs env item authored = .ok value

/-- The members of an object, before they are assigned. -/
structure MembersRestored (env : Env) (incoming parsed values : List (JsString × ConfigValue)) : Prop where
  length : values.length = incoming.length
  members : ∀ (i : Nat) (member : JsString × ConfigValue), incoming[i]? = some member →
    ∃ value, values[i]? = some (member.1, value) ∧ MemberRestored env parsed member.1 member.2 value

theorem restoreAt_eq_ok {parsed : List ConfigValue} {source : Option Nat} {item value : ConfigValue}
    (h : restoreAt (parsed.map fun authored value => restoreEnvVarRefs env value authored) source item = .ok value) :
    (value = item ∧ ∀ j authored, source = some j → parsed[j]? ≠ some authored) ∨
      ∃ j authored, source = some j ∧ parsed[j]? = some authored ∧ restoreEnvVarRefs env item authored = .ok value := by
  rw [restoreAt] at h
  split at h
  · rename_i restore hrestore
    obtain ⟨j, rfl, hfound⟩ := bind_eq_some_iff.mp hrestore
    rw [getElem?_map, map_eq_some_iff] at hfound
    obtain ⟨authored, hauthored, rfl⟩ := hfound
    exact .inr ⟨j, authored, rfl, hauthored, h⟩
  · rename_i hnone
    refine .inl ⟨(ok.inj h).symm, ?_⟩
    rintro j authored rfl hauthored
    rw [bind_some, getElem?_map, hauthored] at hnone
    cases hnone

theorem itemsRestored_of_restoreArray {incoming parsed next : List ConfigValue}
    (h : restoreArray env incoming parsed (parsed.map fun authored value => restoreEnvVarRefs env value authored) =
      .ok next) : ItemsRestored env incoming parsed next := by
  suffices hloop : (incoming.zipIdx.mapM fun entry =>
      restoreAt (parsed.map fun authored value => restoreEnvVarRefs env value authored)
        (authoredSource env incoming parsed entry.2) entry.1) = .ok next by
    obtain ⟨hlength, hitems⟩ := (mapM_zipIdx_eq_ok_iff fun index item =>
      restoreAt (parsed.map fun authored value => restoreEnvVarRefs env value authored)
        (authoredSource env incoming parsed index) item).mp hloop
    refine ⟨hlength, fun i item hitem => ?_⟩
    obtain ⟨value, hvalue, hrestore⟩ := hitems i item hitem
    exact ⟨value, hvalue, restoreAt_eq_ok hrestore⟩
  rw [restoreArray] at h
  split at h
  · simpa only [authoredSource, if_pos ‹(parsed.any containsAuthoredTemplate) = false›] using h
  · obtain ⟨matched, hmatched, h⟩ := bind_eq_ok.mp h
    obtain ⟨found, hfound, h⟩ := bind_eq_ok.mp h
    obtain ⟨-, -, heq⟩ := bind_eq_ok.mp h
    obtain rfl := ok.inj heq
    simpa only [authoredSource, if_neg ‹¬(parsed.any containsAuthoredTemplate) = false›, hmatched] using hfound

theorem membersRestored_of_restoreObject {incoming parsed members : List (JsString × ConfigValue)}
    (h : restoreObject incoming
      (parsed.map fun member => (member.1, fun value => restoreEnvVarRefs env value member.2)) = .ok members) :
    ∃ values, MembersRestored env incoming parsed values ∧ members = assignAll values := by
  obtain ⟨values, hvalues, heq⟩ := bind_eq_ok.mp h
  obtain ⟨hlength, hmembers⟩ := mapM_eq_ok_iff_getElem?.mp hvalues
  refine ⟨values, ⟨hlength, fun i member hmember => ?_⟩, (ok.inj heq).symm⟩
  obtain ⟨⟨name, value⟩, hvalue, hrestore⟩ := hmembers i member hmember
  have hget := get_map_snd parsed (fun authored value => restoreEnvVarRefs env value authored) member.1
  rw [hget] at hrestore
  cases hauthored : get parsed member.1 with
  | none =>
    rw [hauthored] at hrestore
    obtain rfl := ok.inj hrestore
    exact ⟨_, hvalue, .inl ⟨hauthored, rfl⟩⟩
  | some authored =>
    rw [hauthored] at hrestore
    obtain ⟨restored, hrestored, hpair⟩ := bind_eq_ok.mp hrestore
    cases ok.inj hpair
    exact ⟨value, hvalue, .inr ⟨authored, hauthored, hrestored⟩⟩

variable {result : ConfigValue}

theorem restoreEnvVarRefs_array {items authored : List ConfigValue}
    (h : restoreEnvVarRefs env (.array items) (.array authored) = .ok result) :
    ∃ next, result = .array next ∧ ItemsRestored env items authored next := by
  rw [restoreEnvVarRefs] at h
  obtain ⟨next, hnext, heq⟩ := bind_eq_ok.mp h
  exact ⟨next, (ok.inj heq).symm, itemsRestored_of_restoreArray hnext⟩

theorem restoreEnvVarRefs_object {members authored : List (JsString × ConfigValue)}
    (h : restoreEnvVarRefs env (.object members) (.object authored) = .ok result) :
    ∃ values, result = .object (assignAll values) ∧ MembersRestored env members authored values := by
  rw [restoreEnvVarRefs] at h
  obtain ⟨next, hnext, heq⟩ := bind_eq_ok.mp h
  obtain ⟨values, hvalues, rfl⟩ := membersRestored_of_restoreObject hnext
  exact ⟨values, (ok.inj heq).symm, hvalues⟩

/-- **Induction along the walk**: what holds of a value that is kept and of a string that is restored, and passes from
the parts to an array and to an object, holds of every result. -/
theorem restoreEnvVarRefs_induction {P : ConfigValue → ConfigValue → ConfigValue → Prop}
    {incoming parsed result : ConfigValue} (same : ∀ incoming parsed, P incoming parsed incoming)
    (string : ∀ template, P (.string (substituteString env template)) (.string template) (.string template))
    (array : ∀ authored items next, ItemsRestored env items authored next →
      (∀ source ∈ authored, ∀ item value, restoreEnvVarRefs env item source = .ok value → P item source value) →
        P (.array items) (.array authored) (.array next))
    (object : ∀ authored members values, MembersRestored env members authored values →
      (∀ entry ∈ authored, ∀ item value, restoreEnvVarRefs env item entry.2 = .ok value → P item entry.2 value) →
        P (.object members) (.object authored) (.object (assignAll values)))
    (h : restoreEnvVarRefs env incoming parsed = .ok result) : P incoming parsed result := by
  induction parsed generalizing incoming result with
  | object authored ih =>
    cases incoming with
    | object members =>
      obtain ⟨values, rfl, hvalues⟩ := restoreEnvVarRefs_object h
      exact object authored members values hvalues fun entry hentry item value hok => ih entry hentry hok
    | array | string | number | boolean | null =>
      rw [restoreEnvVarRefs] at h <;> first | exact ok.inj h ▸ same _ _ | simp
  | array authored ih =>
    cases incoming with
    | array items =>
      obtain ⟨next, rfl, hnext⟩ := restoreEnvVarRefs_array h
      exact array authored items next hnext fun source hsource item value hok => ih source hsource hok
    | object | string | number | boolean | null =>
      rw [restoreEnvVarRefs] at h <;> first | exact ok.inj h ▸ same _ _ | simp
  | string template =>
    cases incoming with
    | string text =>
      rw [restoreEnvVarRefs] at h
      obtain rfl := ok.inj h
      split
      · rename_i hresolved
        rw [Bool.and_eq_true, beq_iff_eq, tryResolveString_eq] at hresolved
        exact hresolved.2 ▸ string template
      · exact same _ _
    | object | array | number | boolean | null =>
      rw [restoreEnvVarRefs] at h <;> first | exact ok.inj h ▸ same _ _ | simp
  | number | boolean | null =>
    rw [restoreEnvVarRefs] at h <;> first | exact ok.inj h ▸ same _ _ | simp

section Members

variable {incoming parsed values : List (JsString × ConfigValue)}

section

variable (h : MembersRestored env incoming parsed values)

include h

theorem MembersRestored.keys : values.map (·.1) = incoming.map (·.1) := by
  refine ext_getElem? fun i => ?_
  rw [getElem?_map, getElem?_map]
  cases hmember : incoming[i]? with
  | none => rw [getElem?_eq_none (h.length ▸ getElem?_eq_none_iff.mp hmember)]
  | some member =>
    obtain ⟨value, hvalue, -⟩ := h.members i member hmember
    rw [hvalue]
    rfl

theorem MembersRestored.mem {entry : JsString × ConfigValue} (hentry : entry ∈ values) :
    ∃ item, (entry.1, item) ∈ incoming ∧ MemberRestored env parsed entry.1 item entry.2 := by
  obtain ⟨i, hi⟩ := List.mem_iff_getElem?.mp hentry
  have hlt : i < incoming.length := h.length ▸ (List.getElem?_eq_some_iff.mp hi).1
  obtain ⟨value, hvalue, hrestored⟩ := h.members i incoming[i] (List.getElem?_eq_getElem hlt)
  obtain rfl := mem_unique hi hvalue
  exact ⟨_, List.getElem_mem hlt, hrestored⟩

theorem MembersRestored.get_iff (hnodup : (incoming.map (·.1)).Nodup)
    {name : JsString} {value : ConfigValue} : get (assignAll values) name = some value ↔
      name ≠ PROTO ∧ ∃ item, get incoming name = some item ∧ MemberRestored env parsed name item value := by
  have hvalues : (values.map (·.1)).Nodup := h.keys ▸ hnodup
  rw [assignAll_of_nodup hvalues]
  have hassigned : ((values.filter fun member => member.1 ≠ PROTO).map (·.1)).Nodup :=
    hvalues.sublist (filter_sublist.map _)
  constructor
  · intro hget
    obtain ⟨hmem, hname⟩ := mem_filter.mp (mem_of_get hget)
    obtain ⟨item, hitem, hrestored⟩ := h.mem hmem
    exact ⟨by simpa using hname, item, get_of_mem hnodup hitem, hrestored⟩
  · rintro ⟨hname, item, hitem, hrestored⟩
    obtain ⟨i, hi⟩ := mem_iff_getElem?.mp (mem_of_get hitem)
    obtain ⟨found, hfound, hfoundRestored⟩ := h.members i _ hi
    have heq : found = value := by
      rcases hrestored with ⟨hnone, rfl⟩ | ⟨authored, hauthored, hok⟩
      · rcases hfoundRestored with ⟨-, rfl⟩ | ⟨authored, hauthored, -⟩
        · rfl
        · cases hnone.symm.trans hauthored
      · rcases hfoundRestored with ⟨hnone, -⟩ | ⟨authored', hauthored', hok'⟩
        · cases hnone.symm.trans hauthored
        · obtain rfl := mem_unique hauthored hauthored'
          exact ok.inj (hok'.symm.trans hok)
    subst heq
    exact get_of_mem hassigned (mem_filter.mpr ⟨mem_of_getElem? hfound, decide_eq_true hname⟩)

end

end Members

/-- A path of the result is restored from a path of the authored config. -/
inductive RestoredFrom (env : Env) : ConfigValue → ConfigValue → List Step → List Step → Prop
  | here (incoming parsed : ConfigValue) : RestoredFrom env incoming parsed [] []
  | item {incoming parsed : List ConfigValue} {i j : Nat} {item authored : ConfigValue} {path source : List Step} :
    authoredSource env incoming parsed i = some j → incoming[i]? = some item → parsed[j]? = some authored →
      RestoredFrom env item authored path source →
        RestoredFrom env (.array incoming) (.array parsed) (.index i :: path) (.index j :: source)
  | member {incoming parsed : List (JsString × ConfigValue)} {name : JsString} {item authored : ConfigValue}
    {path source : List Step} :
    get incoming name = some item → get parsed name = some authored → RestoredFrom env item authored path source →
        RestoredFrom env (.object incoming) (.object parsed) (.key name :: path) (.key name :: source)

theorem RestoredFrom.injective {incoming parsed : ConfigValue} {path path' source : List Step}
    (h : RestoredFrom env incoming parsed path source) (h' : RestoredFrom env incoming parsed path' source) :
    path = path' := by
  induction h generalizing path' with
  | here =>
    cases h'
    rfl
  | item hsource hitem hauthored _ ih =>
    cases h' with
    | item hsource' hitem' hauthored' hbelow =>
      obtain rfl := authoredSource_injective hsource hsource'
      obtain rfl := mem_unique hitem hitem'
      obtain rfl := mem_unique hauthored hauthored'
      rw [ih hbelow]
  | member hitem hauthored _ ih =>
    cases h' with
    | member hitem' hauthored' hbelow =>
      obtain rfl := mem_unique hitem hitem'
      obtain rfl := mem_unique hauthored hauthored'
      rw [ih hbelow]

end Config
end ClawWorks
