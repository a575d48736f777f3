import ClawWorks.Transcript.ToolCallIds

/-!
# The resolver of tool-call ids
-/

namespace ClawWorks.Transcript

open List

def isIdUnit (u : UInt16) : Bool :=
  isAlphanumeric u || u == 46 || u == 95 || u == DASH || u == COLON

variable {u : UInt16}

theorem isAlphanumeric_of_isDigit (h : isDigit u) : isAlphanumeric u := by
  rw [isAlphanumeric, h, Bool.true_or, Bool.true_or]

theorem isIdUnit_of_isAlphanumeric (h : isAlphanumeric u) : isIdUnit u := by
  simp [isIdUnit, h]

theorem isWhiteSpace_of_isIdUnit (h : isIdUnit u) : isWhiteSpace u = false := by
  simp only [isIdUnit, Bool.or_eq_true, isAlphanumeric_iff, beq_iff_eq, ← UInt16.toNat_inj, DASH, COLON] at h
  simp at h
  exact isWhiteSpace_of_printable (by omega) (by omega)

theorem isDigit_of_mem_decimal {n : Nat} (h : u ∈ decimal n) : isDigit u := by
  obtain ⟨c, hc, hu⟩ := mem_flatMap.mp h
  have hdigit : c.isDigit := Nat.isDigit_of_mem_toDigits (b := 10) (n := n) (by decide) (by decide)
    (by simpa [toString, Nat.repr] using hc)
  have hrange : 48 ≤ c.toNat ∧ c.toNat ≤ 57 := by
    simpa [Char.isDigit, UInt32.le_iff_toNat_le] using hdigit
  rw [codeUnits, if_pos (by omega), mem_singleton] at hu
  subst hu
  simp only [isDigit, Bool.and_eq_true, decide_eq_true_eq, UInt16.le_iff_toNat_le]
  simp
  omega

theorem isIdUnit_of_native {id : JsString} (h : isNativeKimiToolCallId id) : ∀ u ∈ id, isIdUnit u := by
  unfold isNativeKimiToolCallId at h
  simp only [Bool.and_eq_true, beq_iff_eq] at h
  obtain ⟨⟨⟨⟨hstart, -⟩, hcolon⟩, -⟩, hdigits⟩ := h
  obtain ⟨named, rfl⟩ := isPrefixOf_iff_prefix.mp hstart
  have hnamed : (js "functions." ++ named).drop 10 = named := drop_left' (by decide)
  rw [hnamed] at hcolon hdigits
  intro u hu
  rcases mem_append.mp hu with hu | hu
  · exact (show ∀ v ∈ js "functions.", isIdUnit v by decide) u hu
  rw [← takeWhile_append_dropWhile (p := fun u => isAlphanumeric u || u == 95 || u == DASH) (l := named)] at hu
  rcases mem_append.mp hu with hu | hu
  · have hname := mem_takeWhile_imp hu
    simp only [Bool.or_eq_true] at hname
    rcases hname with (h | h) | h
    · exact isIdUnit_of_isAlphanumeric h
    · simp [isIdUnit, h]
    · simp [isIdUnit, h]
  · obtain ⟨rest, hrest⟩ := head?_eq_some_iff.mp hcolon
    rw [hrest] at hu hdigits
    rcases mem_cons.mp hu with rfl | hu
    · decide
    · exact isIdUnit_of_isAlphanumeric (isAlphanumeric_of_isDigit (all_eq_true.mp hdigits u hu))

/-! ## One id -/

section Made

variable [Digest]

theorem shortHash_alphanumeric (text : JsString) (n : Nat) : ∀ u ∈ shortHash text n, isAlphanumeric u :=
  fun u hu => Digest.alphanumeric text u (mem_of_mem_take hu)

theorem length_shortHash (text : JsString) {n : Nat} (hn : n ≤ 64) : (shortHash text n).length = n := by
  rw [shortHash, length_take, Digest.length]
  omega

theorem sanitizeToolCallId_strict (id : JsString) : sanitizeToolCallId id .strict ≠ [] ∧
    (isNativeKimiToolCallId id ∧ sanitizeToolCallId id .strict = id ∨
      ∀ u ∈ sanitizeToolCallId id .strict, isAlphanumeric u) := by
  unfold sanitizeToolCallId
  simp only
  split
  · exact ⟨by decide, .inr (by decide)⟩
  rename_i hne
  split
  · rename_i hnative
    exact ⟨by simpa using hne, .inl ⟨hnative, rfl⟩⟩
  split
  · rename_i hlength
    exact ⟨ne_nil_of_length_pos hlength, .inr fun u hu => of_mem_filter hu⟩
  · exact ⟨by decide, .inr (by decide)⟩

theorem sanitizeToolCallId_strict9 (id : JsString) : (sanitizeToolCallId id .strict9).length = STRICT9_LEN ∧
    ∀ u ∈ sanitizeToolCallId id .strict9, isAlphanumeric u := by
  unfold sanitizeToolCallId
  simp only
  split
  · exact ⟨by decide, by decide⟩
  split
  · rename_i hlength
    refine ⟨by rw [length_take]; omega, fun u hu => ?_⟩
    exact of_mem_filter (mem_of_mem_take hu)
  split
  · exact ⟨length_shortHash _ (by decide), shortHash_alphanumeric _ _⟩
  · exact ⟨length_shortHash _ (by decide), shortHash_alphanumeric _ _⟩

variable [Clock] {used : List JsString} {id : JsString} {mode : ToolCallIdMode}

theorem makeUniqueToolId_fresh (h : (makeUniqueToolId id used mode).2 = false) :
    (makeUniqueToolId id used mode).1 ∉ used := by
  cases mode with
  | strict =>
    unfold makeUniqueToolId at h ⊢
    simp only at h ⊢
    split
    · rename_i hfree
      simpa using hfree
    rename_i htaken
    rw [if_neg htaken] at h
    split
    · rename_i hfree
      simpa using hfree
    rename_i htaken'
    rw [if_neg htaken'] at h
    split
    · rename_i next hnext
      simpa using find?_some hnext
    · rename_i hnone
      rw [hnone] at h
      cases h
  | strict9 =>
    unfold makeUniqueToolId at h ⊢
    simp only at h ⊢
    generalize (if STRICT9_LEN ≤ (sanitizeToolCallId id .strict9).length then
      (sanitizeToolCallId id .strict9).take STRICT9_LEN else []) = candidate at h ⊢
    split
    · rename_i hfree
      rw [Bool.and_eq_true] at hfree
      simpa using hfree.2
    rename_i htaken
    rw [if_neg htaken] at h
    split
    · rename_i next hnext
      simpa using find?_some hnext
    · rename_i hnone
      rw [hnone] at h
      cases h

theorem makeUniqueToolId_strict9 : (makeUniqueToolId id used .strict9).1.length = STRICT9_LEN ∧
    ∀ u ∈ (makeUniqueToolId id used .strict9).1, isAlphanumeric u := by
  obtain ⟨hlength, hunits⟩ := sanitizeToolCallId_strict9 id
  unfold makeUniqueToolId
  simp only [hlength, le_refl, if_true]
  split
  · refine ⟨by rw [length_take, hlength, Nat.min_self], fun u hu => ?_⟩
    exact hunits u (mem_of_mem_take hu)
  split
  · rename_i next hnext
    obtain ⟨i, -, rfl⟩ := mem_map.mp (mem_of_find?_eq_some hnext)
    exact ⟨length_shortHash _ (by decide), shortHash_alphanumeric _ _⟩
  · exact ⟨length_shortHash _ (by decide), shortHash_alphanumeric _ _⟩

theorem makeUniqueToolId_strict_units {P : UInt16 → Prop} (hP : ∀ u, isAlphanumeric u → P u)
    (hbase : ∀ u ∈ sanitizeToolCallId id .strict, P u) : ∀ u ∈ (makeUniqueToolId id used .strict).1, P u := by
  have hbase' : ∀ n, ∀ u ∈ (sanitizeToolCallId id .strict).take n, P u := fun n u hu => hbase u (mem_of_mem_take hu)
  have hhash : ∀ u ∈ shortHash id 8, P u := fun u hu => hP u (shortHash_alphanumeric _ _ u hu)
  have hdigits : ∀ (c : JsString) (digits : JsString), (∀ u ∈ c, isAlphanumeric u) →
      (∀ u ∈ digits, isDigit u) → ∀ u ∈ c ++ digits, P u := by
    intro c digits hc hdigit u hu
    rcases mem_append.mp hu with hu | hu
    · exact hP u (hc u hu)
    · exact hP u (isAlphanumeric_of_isDigit (hdigit u hu))
  unfold makeUniqueToolId
  simp only
  split
  · exact hbase' _
  have hcandidate : ∀ u ∈ hashedCandidate id ((sanitizeToolCallId id .strict).take MAX_LEN), P u := by
    unfold hashedCandidate
    intro u hu
    rcases mem_append.mp hu with hu | hu
    · split at hu
      · exact hbase' _ u (mem_of_mem_take hu)
      · exact hbase' _ u hu
    · exact hhash u hu
  split
  · exact hcandidate
  split
  · rename_i next hnext
    obtain ⟨i, -, rfl⟩ := mem_map.mp (mem_of_find?_eq_some hnext)
    intro u hu
    rcases mem_append.mp hu with hu | hu
    · exact hcandidate u (mem_of_mem_take hu)
    · exact hdigits _ _ (by decide) (fun v hv => isDigit_of_mem_decimal hv) u hu
  · intro u hu
    rcases mem_append.mp hu with hu | hu
    · exact hcandidate u (mem_of_mem_take hu)
    · exact hdigits _ _ (by decide) Clock.digits u hu

theorem makeUniqueToolId_strict_ne_nil : (makeUniqueToolId id used .strict).1 ≠ [] := by
  have hhash : shortHash id 8 ≠ [] := by
    intro hnil
    have hlength := length_shortHash id (n := 8) (by decide)
    rw [hnil] at hlength
    cases hlength
  have hcandidate : hashedCandidate id ((sanitizeToolCallId id .strict).take MAX_LEN) ≠ [] :=
    append_ne_nil_of_right_ne_nil _ hhash
  unfold makeUniqueToolId
  simp only
  split
  · intro hnil
    rcases take_eq_nil_iff.mp hnil with h | h
    · cases h
    · exact (sanitizeToolCallId_strict id).1 h
  split
  · exact hcandidate
  split
  · rename_i next hnext
    obtain ⟨i, -, rfl⟩ := mem_map.mp (mem_of_find?_eq_some hnext)
    exact append_ne_nil_of_right_ne_nil _ (cons_ne_nil _ _)
  · exact append_ne_nil_of_right_ne_nil _ (cons_ne_nil _ _)

theorem makeUniqueToolId_idText : (makeUniqueToolId id used mode).1 ≠ [] ∧
    ∀ u ∈ (makeUniqueToolId id used mode).1, isIdUnit u := by
  cases mode with
  | strict =>
    refine ⟨makeUniqueToolId_strict_ne_nil, ?_⟩
    refine makeUniqueToolId_strict_units (fun u => isIdUnit_of_isAlphanumeric) ?_
    rcases (sanitizeToolCallId_strict id).2 with ⟨hnative, heq⟩ | h
    · rw [heq]
      exact isIdUnit_of_native hnative
    · exact fun u hu => isIdUnit_of_isAlphanumeric (h u hu)
  | strict9 =>
    obtain ⟨hlength, hunits⟩ := @makeUniqueToolId_strict9 _ _ used id
    refine ⟨fun hnil => ?_, fun u hu => isIdUnit_of_isAlphanumeric (hunits u hu)⟩
    rw [hnil] at hlength
    cases hlength

theorem makeUniqueToolId_strict : (∀ u ∈ (makeUniqueToolId id used .strict).1, isAlphanumeric u) ∨
      isNativeKimiToolCallId id ∧
        (id.take MAX_LEN ∉ used → (makeUniqueToolId id used .strict).1 = id.take MAX_LEN) := by
  rcases (sanitizeToolCallId_strict id).2 with ⟨hnative, heq⟩ | h
  · right
    refine ⟨hnative, fun hfree => ?_⟩
    unfold makeUniqueToolId
    simp [heq, hfree]
  · exact .inl (makeUniqueToolId_strict_units (fun u hu => hu) h)

end Made

/-! ## The resolver and what it has seen -/

def newIds (id : JsString) (calls : List (JsString × JsString)) : List JsString :=
  (calls.filter (·.1 == id)).map (·.2)

@[simp] theorem newIds_append (id : JsString) (calls more : List (JsString × JsString)) :
    newIds id (calls ++ more) = newIds id calls ++ newIds id more := by
  rw [newIds, filter_append, map_append]
  rfl

theorem length_newIds (id : JsString) (calls : List (JsString × JsString)) :
    (newIds id calls).length = (calls.map (·.1)).count id := by
  rw [newIds, length_map, count, countP_map, countP_eq_length_filter]
  rfl

variable {calls : List (JsString × JsString)}

theorem mem_newIds {id next : JsString} : next ∈ newIds id calls ↔ (id, next) ∈ calls := by
  rw [newIds, mem_map]
  constructor
  · rintro ⟨⟨raw, new⟩, h, rfl⟩
    obtain ⟨hmem, hraw⟩ := mem_filter.mp h
    rwa [← eq_of_beq hraw]
  · intro h
    exact ⟨(id, next), mem_filter.mpr ⟨h, beq_self_eq_true id⟩, rfl⟩

theorem raw_unique (h : (calls.map (·.2)).Nodup) {id other next : JsString}
    (hid : next ∈ newIds id calls) (hother : next ∈ newIds other calls) : id = other := by
  have hpairs := inj_on_of_nodup_map h (mem_newIds.mp hid) (mem_newIds.mp hother) rfl
  exact congrArg Prod.fst hpairs

theorem nodup_newIds (h : (calls.map (·.2)).Nodup) (id : JsString) : (newIds id calls).Nodup :=
  h.sublist (List.Sublist.map _ filter_sublist)

/-- A resolver that has seen `calls`, and `consumed id` results for the calls with raw id `id`. -/
structure Accounts (calls : List (JsString × JsString)) (consumed : JsString → Nat) (s : Resolver) : Prop where
  used : ∀ call ∈ calls, call.2 ∈ s.used
  nodup : (calls.map (·.2)).Nodup
  occurrences : ∀ id, (s.assistantOccurrences.get id).getD 0 = (calls.map (·.1)).count id
  consumed_le : ∀ id, consumed id ≤ (newIds id calls).length
  pending : ∀ id, (s.pendingByRawId.get id).getD [] = (newIds id calls).drop (consumed id)

theorem accounts_initial : Accounts [] (fun _ => 0) createOccurrenceAwareResolver :=
  ⟨by simp, nodup_nil, fun _ => rfl, fun _ => le_refl 0, fun _ => rfl⟩

def callSeed (before : List JsString) (id : JsString) : JsString :=
  occurrenceSeed id (before.count id + 1)

section Resolver

variable [Digest] [Clock] {mode : ToolCallIdMode} {calls : List (JsString × JsString)} {consumed : JsString → Nat}
  {s : Resolver} {id : JsString}

theorem exhausted_of_call (h : (resolveAssistantId mode id s).2.exhausted = false) : s.exhausted = false := by
  exact (Bool.or_eq_false_iff.mp h).1

theorem resolveAssistantId_fst (h : Accounts calls consumed s) : (resolveAssistantId mode id s).1 =
    (makeUniqueToolId (callSeed (calls.map (·.1)) id) s.used mode).1 := by
  rw [callSeed, ← h.occurrences]
  rfl

theorem resolveAssistantId_used : (resolveAssistantId mode id s).2.used = (resolveAssistantId mode id s).1 :: s.used :=
  rfl

theorem resolveAssistantId_fresh (h : (resolveAssistantId mode id s).2.exhausted = false) :
    (resolveAssistantId mode id s).1 ∉ s.used :=
  makeUniqueToolId_fresh (Bool.or_eq_false_iff.mp h).2

section

variable (h : Accounts calls consumed s)

include h

theorem accounts_call (hretry : (resolveAssistantId mode id s).2.exhausted = false) :
    Accounts (calls ++ [(id, (resolveAssistantId mode id s).1)]) consumed (resolveAssistantId mode id s).2 := by
  have hfresh := resolveAssistantId_fresh hretry
  have hpending : ∀ other, ((resolveAssistantId mode id s).2.pendingByRawId.get other).getD [] =
      if id = other then (s.pendingByRawId.get id).getD [] ++ [(resolveAssistantId mode id s).1]
      else (s.pendingByRawId.get other).getD [] := by
    intro other
    have hset : (resolveAssistantId mode id s).2.pendingByRawId = s.pendingByRawId.set id
        ((s.pendingByRawId.get id).getD [] ++ [(resolveAssistantId mode id s).1]) := rfl
    rw [hset, JsMap.get_set]
    split
    · rfl
    · rfl
  have hoccurrences : ∀ other, ((resolveAssistantId mode id s).2.assistantOccurrences.get other).getD 0 =
      if id = other then (s.assistantOccurrences.get id).getD 0 + 1
      else (s.assistantOccurrences.get other).getD 0 := by
    intro other
    have hset : (resolveAssistantId mode id s).2.assistantOccurrences = s.assistantOccurrences.set id
        ((s.assistantOccurrences.get id).getD 0 + 1) := rfl
    rw [hset, JsMap.get_set]
    split
    · rfl
    · rfl
  have hnew : ∀ other, newIds other [(id, (resolveAssistantId mode id s).1)] =
      if id = other then [(resolveAssistantId mode id s).1] else [] := by
    intro other
    by_cases hother : id = other
    · simp [newIds, hother]
    · simp [newIds, hother]
  constructor
  · intro call hcall
    rw [resolveAssistantId_used]
    rcases mem_append.mp hcall with hcall | hcall
    · exact mem_cons_of_mem _ (h.used call hcall)
    · rw [mem_singleton.mp hcall]
      exact mem_cons_self
  · rw [map_append, nodup_append]
    refine ⟨h.nodup, by simp, fun a ha b hb => ?_⟩
    rintro rfl
    obtain ⟨call, hcall, rfl⟩ := mem_map.mp ha
    rw [map_singleton, mem_singleton] at hb
    rw [← show call.2 = (resolveAssistantId mode id s).1 from hb] at hfresh
    exact hfresh (h.used call hcall)
  · intro other
    rw [hoccurrences, map_append, count_append, map_singleton, count_singleton]
    by_cases hother : id = other
    · simp [hother, h.occurrences]
    · simp [hother, h.occurrences]
  · intro other
    rw [newIds_append, length_append]
    have hle := h.consumed_le other
    omega
  · intro other
    rw [hpending, newIds_append, hnew, drop_append_of_le_length (h.consumed_le other)]
    by_cases hother : id = other
    · rw [if_pos hother, if_pos hother, h.pending, hother]
    · rw [if_neg hother, if_neg hother, append_nil, h.pending]

theorem resolveToolResultId_of_pending {next : JsString}
    (hnext : (newIds id calls)[consumed id]? = some next) : (resolveToolResultId mode id s).1 = next ∧
      Accounts calls (fun other => if id = other then consumed id + 1 else consumed other)
        (resolveToolResultId mode id s).2 ∧ (resolveToolResultId mode id s).2.used = s.used ∧
      (resolveToolResultId mode id s).2.exhausted = s.exhausted := by
  have hlength : consumed id < (newIds id calls).length := by
    obtain ⟨hlength, -⟩ := List.getElem?_eq_some_iff.mp hnext
    exact hlength
  have hqueue : (s.pendingByRawId.get id).getD [] = next :: (newIds id calls).drop (consumed id + 1) := by
    rw [h.pending, List.drop_eq_getElem_cons hlength, (List.getElem?_eq_some_iff.mp hnext).2]
  have hresolve : resolveToolResultId mode id s = (next,
      { s with pendingByRawId := s.pendingByRawId.set id ((newIds id calls).drop (consumed id + 1)) }) := by
    rw [resolveToolResultId, hqueue]
  rw [hresolve]
  refine ⟨rfl, ⟨h.used, h.nodup, h.occurrences, ?_, ?_⟩, rfl, rfl⟩
  · intro other
    by_cases hother : id = other
    · subst hother
      rw [if_pos rfl]
      exact hlength
    · rw [if_neg hother]
      exact h.consumed_le other
  · intro other
    show ((s.pendingByRawId.set id _).get other).getD [] = _
    rw [JsMap.get_set]
    by_cases hother : id = other
    · subst hother
      rw [if_pos rfl, if_pos rfl, Option.getD_some]
    · rw [if_neg hother, if_neg hother, h.pending]

theorem resolveToolResultId_of_none
    (hnone : (newIds id calls)[consumed id]? = none) (hretry : (resolveToolResultId mode id s).2.exhausted = false) :
    (resolveToolResultId mode id s).1 ∉ calls.map (·.2) := by
  have hqueue : (s.pendingByRawId.get id).getD [] = [] := by
    rw [h.pending, drop_eq_nil_iff]
    exact getElem?_eq_none_iff.mp hnone
  rw [resolveToolResultId, hqueue] at hretry ⊢
  intro hmem
  obtain ⟨call, hcall, hsame⟩ := mem_map.mp hmem
  refine makeUniqueToolId_fresh (Bool.or_eq_false_iff.mp hretry).2 ?_
  exact hsame ▸ h.used call hcall

theorem resolveToolResultId_idText (hcalls : ∀ call ∈ calls, call.2 ≠ [] ∧ ∀ u ∈ call.2, isIdUnit u) :
    (resolveToolResultId mode id s).1 ≠ [] ∧ ∀ u ∈ (resolveToolResultId mode id s).1, isIdUnit u := by
  cases hnext : (newIds id calls)[consumed id]? with
  | some next =>
    rw [(resolveToolResultId_of_pending h hnext).1]
    exact hcalls _ (mem_newIds.mp (mem_of_getElem? hnext))
  | none =>
    have hqueue : (s.pendingByRawId.get id).getD [] = [] := by
      rw [h.pending, drop_eq_nil_iff]
      exact getElem?_eq_none_iff.mp hnext
    rw [resolveToolResultId, hqueue]
    exact makeUniqueToolId_idText

end

end Resolver

end ClawWorks.Transcript
