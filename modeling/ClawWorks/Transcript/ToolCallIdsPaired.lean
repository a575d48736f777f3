import ClawWorks.Transcript.ToolCallIdResolver

/-!
# Rewritten ids: valid, unique, paired

- `accounts_run`, `natives_run`: what the resolver has seen after a transcript, and which ids are valid;
- `namesItsCall_iff`: when a result names the call it answers.
-/

namespace ClawWorks.Transcript

open List

/-! ## Messages -/

variable {α : Type*}

def Everywhere {β : Type*} (P : List β → β → Prop) (l : List β) : Prop :=
  ∀ before b after, l = before ++ b :: after → P before b

theorem everywhere_nil {β : Type*} (P : List β → β → Prop) : Everywhere P [] := by
  intro before b after h
  cases before <;> cases h

theorem everywhere_concat {β : Type*} {P : List β → β → Prop} {l : List β} {b : β} :
    Everywhere P (l ++ [b]) ↔ Everywhere P l ∧ P l b := by
  constructor
  · intro h
    refine ⟨fun before c after hl => h before c (after ++ [b]) (by rw [hl, append_assoc]; rfl), ?_⟩
    exact h l b [] rfl
  · rintro ⟨hl, hb⟩ before c after h
    rcases eq_nil_or_concat after with rfl | ⟨front, last, rfl⟩
    · obtain ⟨rfl, heq⟩ := append_inj' h rfl
      obtain rfl := (cons.inj heq).1
      exact hb
    · rw [concat_eq_append, ← cons_append, ← append_assoc] at h
      obtain ⟨hfront, -⟩ := append_inj' h rfl
      exact hl before c front hfront

/-- The calls of messages that were rewritten, each raw id with its new one. -/
def ledger (pairs : List (Message α × Message α)) : List (JsString × JsString) :=
  pairs.flatMap fun pair => (callIds pair.1).zip (callIds pair.2)

/-- The result names the call. -/
def names (id : JsString) : Message α → Bool
  | .toolResult message => extractToolResultId message == some id
  | _ => false

def callCount (id : JsString) (messages : List (Message α)) : Nat :=
  (messages.flatMap callIds).count id

def resultCount (id : JsString) (messages : List (Message α)) : Nat :=
  messages.countP (names id)

theorem primaryRawId_mem {message : ToolResultMessage α} {id : JsString} (h : primaryRawId message = some id) :
    some id ∈ message.idFields ∧ id ≠ [] := by
  obtain ⟨field, hfield, hid⟩ := exists_of_findSome?_eq_some h
  have hsome := truthy?_eq_some hid
  subst hsome
  refine ⟨?_, ?_⟩
  · simp only [mem_cons, not_mem_nil, or_false] at hfield
    simp only [ToolResultMessage.idFields, mem_cons, not_mem_nil, or_false]
    tauto
  · rintro rfl
    cases hid

variable {pairs : List (Message α × Message α)}

theorem map_fst_ledger (h : ∀ pair ∈ pairs, (callIds pair.2).length = (callIds pair.1).length) :
    (ledger pairs).map (·.1) = (pairs.map (·.1)).flatMap callIds := by
  induction pairs with
  | nil => rfl
  | cons pair pairs ih =>
    rw [ledger, flatMap_cons, map_append, map_fst_zip (h pair mem_cons_self).ge, map_cons,
      flatMap_cons]
    exact congrArg _ (ih fun other hother => h other (mem_cons_of_mem _ hother))

theorem map_snd_ledger (h : ∀ pair ∈ pairs, (callIds pair.2).length = (callIds pair.1).length) :
    (ledger pairs).map (·.2) = (pairs.map (·.2)).flatMap callIds := by
  induction pairs with
  | nil => rfl
  | cons pair pairs ih =>
    rw [ledger, flatMap_cons, map_append, map_snd_zip (h pair mem_cons_self).le, map_cons,
      flatMap_cons]
    exact congrArg _ (ih fun other hother => h other (mem_cons_of_mem _ hother))

section Messages

variable [Digest] [Clock] {mode : ToolCallIdMode}

def resolveAssistantIds (mode : ToolCallIdMode) : List JsString → Resolver → List JsString × Resolver
  | [], s => ([], s)
  | id :: ids, s =>
    let first := resolveAssistantId mode id s
    let rest := resolveAssistantIds mode ids first.2
    (first.1 :: rest.1, rest.2)

theorem length_resolveAssistantIds (ids : List JsString) (s : Resolver) :
    (resolveAssistantIds mode ids s).1.length = ids.length := by
  induction ids generalizing s with
  | nil => rfl
  | cons id ids ih => rw [resolveAssistantIds, length_cons, ih, length_cons]

variable {s : Resolver} {ids : List JsString}

theorem exhausted_of_calls (h : (resolveAssistantIds mode ids s).2.exhausted = false) : s.exhausted = false := by
  induction ids generalizing s with
  | nil => exact h
  | cons id ids ih => exact exhausted_of_call (ih h)

theorem resolveAssistantId_ne_nil {id : JsString} : (resolveAssistantId mode id s).1 ≠ [] := makeUniqueToolId_idText.1

theorem rewriteBlocks_calls (blocks : List (Block α)) (s : Resolver) :
    ((rewriteBlocks mode blocks s).1.filterMap Block.toolCall?).map (·.id) =
      (resolveAssistantIds mode ((blocks.filterMap Block.toolCall?).map (·.id)) s).1 ∧
    (rewriteBlocks mode blocks s).2 =
      (resolveAssistantIds mode ((blocks.filterMap Block.toolCall?).map (·.id)) s).2 := by
  induction blocks generalizing s with
  | nil => exact ⟨rfl, rfl⟩
  | cons block blocks ih =>
    have hother : block.toolCall? = none → rewriteBlock mode block s = (block, s) := by
      intro hblock
      unfold Block.toolCall? at hblock
      unfold rewriteBlock
      split
      · rename_i type id name rest
        simp only [ite_eq_right_iff, reduceCtorEq, imp_false] at hblock
        rw [if_neg hblock]
      · rfl
    cases hcall : block.toolCall? with
    | none =>
      rw [rewriteBlocks, hother hcall]
      simp only [filterMap_cons, hcall]
      exact ih s
    | some call =>
      unfold Block.toolCall? at hcall
      split at hcall
      · rename_i type id name rest
        split at hcall
        · rename_i hid
          obtain rfl := Option.some.inj hcall
          rw [Bool.and_eq_true] at hid
          have hnew : (Block.object (some type) (some (resolveAssistantId mode id s).1) name rest).toolCall? =
              some { id := (resolveAssistantId mode id s).1, name } := by
            rw [Block.toolCall?, if_pos]
            rw [Bool.and_eq_true]
            exact ⟨by simpa using resolveAssistantId_ne_nil, hid.2⟩
          have hold : (Block.object (some type) (some id) name rest).toolCall? = some { id, name } := by
            rw [Block.toolCall?, if_pos]
            rw [Bool.and_eq_true]
            exact hid
          rw [rewriteBlocks, rewriteBlock, if_pos (by rw [Bool.and_eq_true]; exact hid)]
          simp only [filterMap_cons, hnew, hold, map_cons, resolveAssistantIds]
          exact ⟨congrArg _ (ih _).1, (ih _).2⟩
        · cases hcall
      · cases hcall

theorem rewriteMessage_assistant (message : AssistantMessage α) (s : Resolver) :
    ∃ next, rewriteMessage mode (.assistant message) s =
        (.assistant next, (resolveAssistantIds mode (callIds (.assistant message)) s).2) ∧
      callIds (.assistant next) = (resolveAssistantIds mode (callIds (.assistant message)) s).1 := by
  cases hcontent : message.content with
  | none =>
    refine ⟨message, ?_, ?_⟩
    · simp [rewriteMessage, rewriteAssistantToolCallIds, hcontent, callIds, extractToolCallsFromAssistant,
        resolveAssistantIds]
    · simp [hcontent, callIds, extractToolCallsFromAssistant, resolveAssistantIds]
  | some blocks =>
    obtain ⟨hcalls, hstate⟩ := @rewriteBlocks_calls α _ _ mode blocks s
    refine ⟨{ message with content := some (rewriteBlocks mode blocks s).1 }, ?_, ?_⟩
    · simp [rewriteMessage, rewriteAssistantToolCallIds, hcontent, callIds, extractToolCallsFromAssistant, hstate]
    · simpa [hcontent, callIds, extractToolCallsFromAssistant] using hcalls

theorem extract_rewritten {message : ToolResultMessage α} {id : JsString} (hprimary : primaryRawId message = some id)
    (htext : (resolveToolResultId mode id s).1 ≠ [] ∧ ∀ u ∈ (resolveToolResultId mode id s).1, isIdUnit u) :
    extractToolResultId (rewriteToolResultIds mode message s).1 = some (resolveToolResultId mode id s).1 := by
  generalize hresolved : (resolveToolResultId mode id s).1 = resolved at htext ⊢
  have htrim : trim resolved = resolved := trim_eq_self fun u hu => isWhiteSpace_of_isIdUnit (htext.2 u hu)
  have hread : truthy? ((some resolved).map trim) = some resolved := by
    rw [Option.map_some, htrim, truthy?_some htext.1]
  let update := updateIdField resolved
  have hupdate : ∀ field : Option JsString, truthy? field ≠ none → truthy? ((update field).map trim) =
    some resolved := by
    intro field hfield
    rw [show update field = some resolved from if_pos (Option.isSome_iff_ne_none.mpr hfield), hread]
  have hblank : ∀ field : Option JsString, truthy? field = none → truthy? ((update field).map trim) = none := by
    intro field hfield
    rw [show update field = field from if_neg (by simp [hfield])]
    cases field with
    | none => rfl
    | some text =>
      have hnil : text = [] := by
        by_contra hne
        rw [truthy?_some hne] at hfield
        cases hfield
      rw [hnil]
      rfl
  have hany : ∀ fields : List (Option JsString), some id ∈ fields →
      (fields.map update).findSome? (fun value => truthy? (value.map trim)) = some resolved := by
    intro fields
    induction fields with
    | nil => intro h; cases h
    | cons field fields ih =>
      intro h
      rw [map_cons, findSome?_cons]
      by_cases hfield : truthy? field = none
      · rw [hblank field hfield]
        rcases mem_cons.mp h with rfl | h
        · rw [truthy?_some (primaryRawId_mem hprimary).2] at hfield
          cases hfield
        · exact ih h
      · rw [hupdate field hfield]
  rw [extractToolResultId_eq]
  have hrewritten : (rewriteToolResultIds mode message s).1.idFields =
      (if message.toolCallId.isNone && !resolved.isEmpty then some resolved else update message.toolCallId) ::
        [message.toolUseId, message.tool_call_id, message.tool_use_id, message.callId, message.call_id].map update := by
    simp only [rewriteToolResultIds, hprimary, hresolved]
    rfl
  rw [hrewritten]
  by_cases hnone : message.toolCallId.isNone && !resolved.isEmpty
  · rw [if_pos hnone, findSome?_cons, hread]
  · rw [if_neg hnone]
    exact hany message.idFields (primaryRawId_mem hprimary).1

theorem exhausted_of_result {id : JsString} (h : (resolveToolResultId mode id s).2.exhausted = false) :
    s.exhausted = false := by
  unfold resolveToolResultId at h
  split at h
  · exact h
  · exact (Bool.or_eq_false_iff.mp h).1

theorem exhausted_of_message {message : Message α}
    (h : (rewriteMessage mode message s).2.exhausted = false) : s.exhausted = false := by
  cases message with
  | assistant message =>
    obtain ⟨next, heq, -⟩ := @rewriteMessage_assistant α _ _ mode message s
    rw [heq] at h
    exact exhausted_of_calls h
  | toolResult message =>
    have hresult : (rewriteToolResultIds mode message s).2.exhausted = false := h
    unfold rewriteToolResultIds at hresult
    cases hprimary : primaryRawId message with
    | none =>
      rw [hprimary] at hresult
      exact hresult
    | some id =>
      rw [hprimary] at hresult
      exact exhausted_of_result hresult
  | other value => exact h

/-! ## A whole transcript -/

variable (messages : List (Message α)) (message : Message α)

theorem rewriteMessages_concat : rewriteMessages mode (messages ++ [message]) =
      ((rewriteMessages mode messages).1 ++ [(rewriteMessage mode message (rewriteMessages mode messages).2).1],
        (rewriteMessage mode message (rewriteMessages mode messages).2).2) := by
  rw [rewriteMessages, foldl_append]
  rfl

theorem length_rewriteMessages : (rewriteMessages mode messages).1.length = messages.length := by
  induction messages using reverseRecOn with
  | nil => rfl
  | append_singleton messages message ih => rw [rewriteMessages_concat, length_append, ih, length_append]; rfl

def rewrittenPairs (mode : ToolCallIdMode) (messages : List (Message α)) : List (Message α × Message α) :=
  messages.zip (rewriteMessages mode messages).1

theorem rewrittenPairs_concat : rewrittenPairs mode (messages ++ [message]) = rewrittenPairs mode messages ++
      [(message, (rewriteMessage mode message (rewriteMessages mode messages).2).1)] := by
  rw [rewrittenPairs, rewriteMessages_concat, zip_append (length_rewriteMessages messages).symm]
  rfl

theorem map_fst_rewrittenPairs : (rewrittenPairs mode messages).map (·.1) = messages := by
  rw [rewrittenPairs, map_fst_zip (length_rewriteMessages messages).ge]

theorem map_snd_rewrittenPairs : (rewrittenPairs mode messages).map (·.2) = (rewriteMessages mode messages).1 := by
  rw [rewrittenPairs, map_snd_zip (length_rewriteMessages messages).le]

theorem rewritten_of_mem {messages : List (Message α)} {pair : Message α × Message α}
    (h : pair ∈ rewrittenPairs mode messages) : ∃ s, pair.2 = (rewriteMessage mode pair.1 s).1 := by
  induction messages using reverseRecOn with
  | nil => cases h
  | append_singleton messages message ih =>
    rw [rewrittenPairs_concat] at h
    rcases mem_append.mp h with h | h
    · exact ih h
    · rw [mem_singleton.mp h]
      exact ⟨_, rfl⟩

theorem length_callIds_rewritten (s : Resolver) :
    (callIds (rewriteMessage mode message s).1).length = (callIds message).length := by
  cases message with
  | assistant message =>
    obtain ⟨next, heq, hcalls⟩ := @rewriteMessage_assistant α _ _ mode message s
    rw [heq, hcalls, length_resolveAssistantIds]
  | toolResult message => rfl
  | other value => rfl

theorem length_callIds_pairs {messages : List (Message α)} {pair : Message α × Message α}
    (h : pair ∈ rewrittenPairs mode messages) : (callIds pair.2).length = (callIds pair.1).length := by
  obtain ⟨s, hs⟩ := rewritten_of_mem h
  rw [hs, length_callIds_rewritten]

variable {calls : List (JsString × JsString)} {consumed : JsString → Nat}

theorem accounts_calls (h : Accounts calls consumed s)
    (hretry : (resolveAssistantIds mode ids s).2.exhausted = false) :
    Accounts (calls ++ ids.zip (resolveAssistantIds mode ids s).1) consumed (resolveAssistantIds mode ids s).2 := by
  induction ids generalizing calls s with
  | nil =>
    rw [zip_nil_left, append_nil]
    exact h
  | cons id ids ih =>
    have hfirst := accounts_call h (exhausted_of_calls hretry)
    have hrest := ih hfirst hretry
    rw [append_assoc] at hrest
    exact hrest

theorem idText_calls : ∀ next ∈ (resolveAssistantIds mode ids s).1, next ≠ [] ∧ ∀ u ∈ next, isIdUnit u := by
  induction ids generalizing s with
  | nil => intro next h; cases h
  | cons id ids ih =>
    intro next h
    rcases mem_cons.mp h with rfl | h
    · exact makeUniqueToolId_idText
    · exact ih next h

theorem idText_ledger {messages : List (Message α)} : ∀ call ∈ ledger (rewrittenPairs mode messages),
    call.2 ≠ [] ∧ ∀ u ∈ call.2, isIdUnit u := by
  intro call hcall
  obtain ⟨pair, hpair, hzip⟩ := mem_flatMap.mp hcall
  obtain ⟨s, hs⟩ := rewritten_of_mem hpair
  have hnext : call.2 ∈ callIds pair.2 := (of_mem_zip hzip).2
  rw [hs] at hnext
  cases hmessage : pair.1 with
  | assistant message =>
    rw [hmessage] at hnext
    obtain ⟨next, heq, hcalls⟩ := @rewriteMessage_assistant α _ _ mode message s
    rw [heq, hcalls] at hnext
    exact idText_calls _ hnext
  | toolResult message | other value =>
    rw [hmessage] at hnext
    cases hnext

end Messages

/-! ## Results in turn -/

def Message.isToolResult : Message α → Bool
  | .toolResult _ => true
  | _ => false

/-- A result stands behind a message with a call it names, among the results of that message; the rewriting reads the
same id of it, the earlier calls with the id have their results, and so has not this one. -/
def AnswersInTurn (before : List (Message α)) : Message α → Prop
  | .toolResult r => ∃ earlier a results id, before = earlier ++ .assistant a :: results ∧
      (∀ m ∈ results, m.isToolResult = true) ∧ extractToolResultId r = some id ∧ primaryRawId r = some id ∧
      callCount id earlier = resultCount id earlier ∧ resultCount id results < (callIds (.assistant a)).count id
  | _ => True

/-- A result stands behind a message with a call it names, among the results of that message. -/
def FollowsItsCall (before : List (Message α)) : Message α → Prop
  | .toolResult r => ∃ earlier a results id, before = earlier ++ .assistant a :: results ∧
      (∀ m ∈ results, m.isToolResult = true) ∧ extractToolResultId r = some id ∧ id ∈ callIds (.assistant a)
  | _ => True

/-- A result names the new id of the call it answers: of as many calls with its id in the message before it as the
results in between name, the next. -/
def NamesItsCall (before : List (Message α × Message α)) : Message α × Message α → Prop
  | (.toolResult r, .toolResult r') => ∃ earlier a a' results id next,
      before = earlier ++ (.assistant a, .assistant a') :: results ∧ (∀ pair ∈ results, pair.1.isToolResult = true) ∧
      extractToolResultId r = some id ∧
      (newIds id ((callIds (.assistant a)).zip (callIds (.assistant a'))))[resultCount id (results.map (·.1))]? =
        some next ∧
      extractToolResultId r' = some next
  | _ => True

/-- Ids that are kept in the strict mode are still native after the cut, and no two of them are cut to the same. -/
def NativeIdsKept (ids : List JsString) : Prop :=
  ∀ before id, before ++ [id] <+: ids → isNativeKimiToolCallId (callSeed before id) = true →
    isNativeKimiToolCallId ((callSeed before id).take MAX_LEN) = true ∧
    ∀ earlier other, earlier ++ [other] <+: before → isNativeKimiToolCallId (callSeed earlier other) = true →
      (callSeed earlier other).take MAX_LEN ≠ (callSeed before id).take MAX_LEN

theorem resultCount_append (id : JsString) (messages more : List (Message α)) :
    resultCount id (messages ++ more) = resultCount id messages + resultCount id more :=
  countP_append

theorem callCount_append (id : JsString) (messages more : List (Message α)) :
    callCount id (messages ++ more) = callCount id messages + callCount id more := by
  rw [callCount, flatMap_append, count_append]
  rfl

theorem callCount_cons (id : JsString) (message : Message α) (messages : List (Message α)) :
    callCount id (message :: messages) = (callIds message).count id + callCount id messages := by
  rw [callCount, flatMap_cons, count_append]
  rfl

theorem callCount_results {id : JsString} {messages : List (Message α)}
    (h : ∀ m ∈ messages, m.isToolResult) : callCount id messages = 0 := by
  induction messages with
  | nil => rfl
  | cons message messages ih =>
    rw [callCount_cons, ih fun m hm => h m (mem_cons_of_mem _ hm)]
    have hresult := h message mem_cons_self
    cases message with
    | toolResult r => rfl
    | assistant a | other value => cases hresult

theorem ledger_append (pairs more : List (Message α × Message α)) :
    ledger (pairs ++ more) = ledger pairs ++ ledger more :=
  flatMap_append

theorem ledger_results (h : ∀ pair ∈ pairs, pair.1.isToolResult) : ledger pairs = [] := by
  rw [ledger, flatMap_eq_nil_iff]
  intro pair hpair
  have hresult := h pair hpair
  cases hmessage : pair.1 with
  | toolResult r => rfl
  | assistant a | other value =>
    rw [hmessage] at hresult
    cases hresult

theorem not_alphanumeric_of_native {id : JsString} (h : isNativeKimiToolCallId id) : ¬ ∀ u ∈ id, isAlphanumeric u := by
  intro hall
  unfold isNativeKimiToolCallId at h
  simp only [Bool.and_eq_true] at h
  have hdot : (46 : UInt16) ∈ id := ( isPrefixOf_iff_prefix.mp h.1.1.1.1).subset (by decide)
  exact absurd (hall 46 hdot) (by decide)

section Runs

variable [Digest] [Clock] {mode : ToolCallIdMode} {messages : List (Message α)}

theorem length_newIds_ledger (id : JsString) :
    (newIds id (ledger (rewrittenPairs mode messages))).length = callCount id messages := by
  rw [length_newIds, map_fst_ledger fun pair hpair => length_callIds_pairs hpair, map_fst_rewrittenPairs]
  rfl

theorem step_other {message : Message α} {value : α} (h : message = .other value) :
    ledger (rewrittenPairs mode (messages ++ [message])) = ledger (rewrittenPairs mode messages) ∧
      (rewriteMessages mode (messages ++ [message])).2 = (rewriteMessages mode messages).2 := by
  subst h
  rw [rewrittenPairs_concat, ledger_append, rewriteMessages_concat]
  exact ⟨append_nil _, rfl⟩

theorem step_assistant (a : AssistantMessage α) :
    ledger (rewrittenPairs mode (messages ++ [.assistant a])) = ledger (rewrittenPairs mode messages) ++
        (callIds (.assistant a)).zip
          (resolveAssistantIds mode (callIds (.assistant a)) (rewriteMessages mode messages).2).1 ∧
      (rewriteMessages mode (messages ++ [.assistant a])).2 =
        (resolveAssistantIds mode (callIds (.assistant a)) (rewriteMessages mode messages).2).2 := by
  obtain ⟨next, heq, hcalls⟩ := @rewriteMessage_assistant α _ _ mode a (rewriteMessages mode messages).2
  rw [rewrittenPairs_concat, ledger_append, rewriteMessages_concat, heq, ← hcalls]
  exact ⟨congrArg _ (append_nil _), rfl⟩

theorem step_result (r : ToolResultMessage α) {id : JsString} (hprimary : primaryRawId r = some id) :
    ledger (rewrittenPairs mode (messages ++ [.toolResult r])) = ledger (rewrittenPairs mode messages) ∧
      (rewriteMessages mode (messages ++ [.toolResult r])).2 =
        (resolveToolResultId mode id (rewriteMessages mode messages).2).2 := by
  rw [rewrittenPairs_concat, ledger_append, rewriteMessages_concat]
  refine ⟨append_nil _, ?_⟩
  show (rewriteToolResultIds mode r _).2 = _
  rw [rewriteToolResultIds, hprimary]

theorem answered_index {r : ToolResultMessage α} (h : AnswersInTurn messages (.toolResult r)) :
    ∃ id next, extractToolResultId r = some id ∧ primaryRawId r = some id ∧
      (newIds id (ledger (rewrittenPairs mode messages)))[resultCount id messages]? = some next := by
  obtain ⟨earlier, a, results, id, rfl, hresults, hid, hprimary, hearlier, hcount⟩ := h
  have hlength : resultCount id (earlier ++ .assistant a :: results) <
      (newIds id (ledger (rewrittenPairs mode (earlier ++ .assistant a :: results)))).length := by
    rw [length_newIds_ledger, callCount_append, callCount_cons, callCount_results hresults, resultCount_append]
    have hcons : resultCount id (.assistant a :: results) = resultCount id results := rfl
    rw [hcons]
    omega
  exact ⟨id, _, hid, hprimary, getElem?_eq_getElem hlength⟩

theorem accounts_run (hanswers : Everywhere AnswersInTurn messages)
    (hretry : (rewriteMessages mode messages).2.exhausted = false) :
    Accounts (ledger (rewrittenPairs mode messages)) (fun id => resultCount id messages)
      (rewriteMessages mode messages).2 := by
  induction messages using reverseRecOn with
  | nil => exact accounts_initial
  | append_singleton messages message ih =>
    obtain ⟨hbefore, hmessage⟩ := everywhere_concat.mp hanswers
    have hstep := hretry
    rw [rewriteMessages_concat] at hstep
    have hih := ih hbefore (exhausted_of_message hstep)
    cases message with
    | other value =>
      obtain ⟨hledger, hstate⟩ := @step_other α _ _ mode messages _ value rfl
      rw [hledger, hstate]
      convert hih using 2 with id
      rw [resultCount_append]
      rfl
    | assistant a =>
      obtain ⟨hledger, hstate⟩ := @step_assistant α _ _ mode messages a
      rw [hstate] at hretry
      rw [hledger, hstate]
      convert accounts_calls hih hretry using 2 with id
      rw [resultCount_append]
      rfl
    | toolResult r =>
      obtain ⟨id, next, hid, hprimary, hnext⟩ := @answered_index α _ _ mode messages r hmessage
      obtain ⟨hledger, hstate⟩ := @step_result α _ _ mode messages r id hprimary
      rw [hledger, hstate]
      convert (resolveToolResultId_of_pending hih hnext).2.1 using 2 with other
      rw [resultCount_append]
      have hnames : resultCount other [Message.toolResult r] = if id = other then 1 else 0 := by
        simp [resultCount, names, hid, countP_cons]
      rw [hnames]
      split
      · rename_i heq
        rw [heq]
      · rfl

/-- The ids of the calls are valid; an id that is used and is not alphanumeric is what one of the seeds was cut to. -/
structure Natives (mode : ToolCallIdMode) (calls : List (JsString × JsString)) (s : Resolver) : Prop where
  valid : ∀ call ∈ calls, isValidCloudCodeAssistToolId call.2 mode = true
  used : mode = .strict → ∀ id ∈ s.used, (∀ u ∈ id, isAlphanumeric u = true) ∨
    ∃ earlier other, earlier ++ [other] <+: calls.map (·.1) ∧ isNativeKimiToolCallId (callSeed earlier other) = true ∧
      id = (callSeed earlier other).take MAX_LEN

theorem natives_call {s : Resolver} {id : JsString}
    {ids : List JsString} (hnatives : Natives mode calls s) (h : Accounts calls consumed s)
    (hkept : mode = .strict → NativeIdsKept ids) (hids : calls.map (·.1) ++ [id] <+: ids) :
    Natives mode (calls ++ [(id, (resolveAssistantId mode id s).1)]) (resolveAssistantId mode id s).2 := by
  have hmade := @resolveAssistantId_fst _ _ mode calls consumed s id h
  have hgoal : isValidCloudCodeAssistToolId (resolveAssistantId mode id s).1 mode ∧
      (mode = .strict → (∀ u ∈ (resolveAssistantId mode id s).1, isAlphanumeric u) ∨
        isNativeKimiToolCallId (callSeed (calls.map (·.1)) id) ∧
          (resolveAssistantId mode id s).1 = (callSeed (calls.map (·.1)) id).take MAX_LEN) := by
    rw [hmade]
    cases mode with
    | strict9 =>
      obtain ⟨hlength, hunits⟩ := @makeUniqueToolId_strict9 _ _ s.used (callSeed (calls.map (·.1)) id)
      refine ⟨?_, fun hmode => by cases hmode⟩
      rw [isValidCloudCodeAssistToolId, hlength, all_eq_true.mpr hunits]
      rfl
    | strict =>
      have hne := @makeUniqueToolId_strict_ne_nil _ _ s.used (callSeed (calls.map (·.1)) id)
      rcases @makeUniqueToolId_strict _ _ s.used (callSeed (calls.map (·.1)) id) with hunits | ⟨hnative, hcut⟩
      · refine ⟨?_, fun _ => .inl hunits⟩
        rw [isValidCloudCodeAssistToolId, all_eq_true.mpr hunits]
        simpa using hne
      · obtain ⟨hstill, hother⟩ := hkept rfl _ id hids hnative
        have hfree : (callSeed (calls.map (·.1)) id).take MAX_LEN ∉ s.used := by
          intro hused
          rcases hnatives.used rfl _ hused with hunits | ⟨earlier, other, hbefore, hnative', hsame⟩
          · exact not_alphanumeric_of_native hstill hunits
          · exact hother earlier other hbefore hnative' hsame.symm
        refine ⟨?_, fun _ => .inr ⟨hnative, hcut hfree⟩⟩
        rw [hcut hfree] at hne ⊢
        rw [isValidCloudCodeAssistToolId, hstill, Bool.or_true]
        simpa using hne
  obtain ⟨hvalid, hnew⟩ := hgoal
  constructor
  · intro call hcall
    rcases mem_append.mp hcall with hcall | hcall
    · exact hnatives.valid call hcall
    · rw [mem_singleton.mp hcall]
      exact hvalid
  · intro hmode used hused
    rw [resolveAssistantId_used] at hused
    rw [map_append]
    rcases mem_cons.mp hused with rfl | hused
    · rcases hnew hmode with hunits | hnative
      · exact .inl hunits
      · exact .inr ⟨_, _, prefix_rfl, hnative⟩
    · rcases hnatives.used hmode used hused with hunits | ⟨earlier, other, hbefore, hrest⟩
      · exact .inl hunits
      · exact .inr ⟨earlier, other, hbefore.trans (prefix_append _ _), hrest⟩

theorem natives_calls {s : Resolver}
    {ids total : List JsString} (hnatives : Natives mode calls s) (h : Accounts calls consumed s)
    (hkept : mode = .strict → NativeIdsKept total) (hids : calls.map (·.1) ++ ids <+: total)
    (hretry : (resolveAssistantIds mode ids s).2.exhausted = false) :
    Natives mode (calls ++ ids.zip (resolveAssistantIds mode ids s).1) (resolveAssistantIds mode ids s).2 := by
  induction ids generalizing calls s with
  | nil =>
    rw [zip_nil_left, append_nil]
    exact hnatives
  | cons id ids ih =>
    have hhead : calls.map (·.1) ++ [id] <+: calls.map (·.1) ++ id :: ids := ⟨ids, by simp⟩
    have hfirst := natives_call hnatives h hkept (hhead.trans hids)
    have hrest := ih hfirst (accounts_call h (exhausted_of_calls hretry)) (by simpa using hids) hretry
    rw [append_assoc] at hrest
    exact hrest

theorem natives_run {total : List JsString} (hanswers : Everywhere AnswersInTurn messages)
    (hkept : mode = .strict → NativeIdsKept total) (hids : messages.flatMap callIds <+: total)
    (hretry : (rewriteMessages mode messages).2.exhausted = false) :
    Natives mode (ledger (rewrittenPairs mode messages)) (rewriteMessages mode messages).2 := by
  induction messages using reverseRecOn with
  | nil =>
    constructor
    · intro call h
      cases h
    · intro _ id h
      cases h
  | append_singleton messages message ih =>
    obtain ⟨hbefore, hmessage⟩ := everywhere_concat.mp hanswers
    have hstep := hretry
    rw [rewriteMessages_concat] at hstep
    rw [flatMap_append] at hids
    have hih := ih hbefore ((prefix_append _ _).trans hids) (exhausted_of_message hstep)
    have haccounts := accounts_run hbefore (exhausted_of_message hstep)
    cases message with
    | other value =>
      obtain ⟨hledger, hstate⟩ := @step_other α _ _ mode messages _ value rfl
      rw [hledger, hstate]
      exact hih
    | assistant a =>
      obtain ⟨hledger, hstate⟩ := @step_assistant α _ _ mode messages a
      rw [hstate] at hretry
      rw [hledger, hstate]
      refine natives_calls hih haccounts hkept ?_ hretry
      rw [map_fst_ledger fun pair hpair => length_callIds_pairs hpair, map_fst_rewrittenPairs]
      simpa using hids
    | toolResult r =>
      obtain ⟨id, next, hid, hprimary, hnext⟩ := @answered_index α _ _ mode messages r hmessage
      obtain ⟨hledger, hstate⟩ := @step_result α _ _ mode messages r id hprimary
      obtain ⟨-, -, hused, -⟩ := @resolveToolResultId_of_pending _ _ mode _ _ _ _ haccounts _ hnext
      rw [hledger, hstate]
      refine ⟨hih.valid, ?_⟩
      rw [hused]
      exact hih.used

structure IdsRewritten (mode : ToolCallIdMode) (messages out : List (Message α)) : Prop where
  valid : ∀ m ∈ out, ∀ id ∈ callIds m, isValidCloudCodeAssistToolId id mode = true
  unique : (out.flatMap callIds).Nodup
  paired : Everywhere NamesItsCall (messages.zip out)

theorem namesItsCall_iff {r : ToolResultMessage α} (hanswers : Everywhere AnswersInTurn messages)
    (hretry : (rewriteMessages mode (messages ++ [.toolResult r])).2.exhausted = false) :
    NamesItsCall (rewrittenPairs mode messages)
        (.toolResult r, (rewriteMessage mode (.toolResult r) (rewriteMessages mode messages).2).1) ↔
      AnswersInTurn messages (.toolResult r) := by
  rw [rewriteMessages_concat] at hretry
  have haccounts := @accounts_run α _ _ mode messages hanswers (exhausted_of_message hretry)
  have htext := fun id => @resolveToolResultId_idText _ _ mode _ _ _ id haccounts idText_ledger
  -- The calls of the message before, behind those of the messages before it.
  have hqueue : ∀ (earlier : List (Message α × Message α)) (a a' : AssistantMessage α)
      (results : List (Message α × Message α)) (id : JsString),
      rewrittenPairs mode messages = earlier ++ (.assistant a, .assistant a') :: results →
      (∀ pair ∈ results, pair.1.isToolResult) →
      newIds id (ledger (rewrittenPairs mode messages)) =
          newIds id (ledger earlier) ++ newIds id ((callIds (.assistant a)).zip (callIds (.assistant a'))) ∧
        (newIds id (ledger earlier)).length = callCount id (earlier.map (·.1)) ∧
        messages = earlier.map (·.1) ++ .assistant a :: results.map (·.1) ∧
        resultCount id messages = resultCount id (earlier.map (·.1)) + resultCount id (results.map (·.1)) := by
    intro earlier a a' results id hpairs hresults
    have hcalls : ledger (rewrittenPairs mode messages) =
        ledger earlier ++ (callIds (.assistant a)).zip (callIds (.assistant a')) := by
      rw [hpairs, ledger_append]
      show _ ++ (_ ++ ledger results) = _
      rw [ledger_results hresults, append_nil]
    have hmessages : messages = earlier.map (·.1) ++ .assistant a :: results.map (·.1) := by
      rw [← @map_fst_rewrittenPairs α _ _ mode messages, hpairs, map_append, map_cons]
    refine ⟨by rw [hcalls, newIds_append], ?_, hmessages, ?_⟩
    · rw [length_newIds, map_fst_ledger]
      · rfl
      · intro pair hpair
        refine @length_callIds_pairs α _ _ mode messages pair ?_
        rw [hpairs]
        exact mem_append_left _ hpair
    · rw [hmessages, resultCount_append]
      rfl
  constructor
  · rintro ⟨earlier, a, a', results, id, next, hpairs, hresults, hid, hnext, hnew⟩
    obtain ⟨hnews, hlength, hmessages, hcount⟩ := hqueue earlier a a' results id hpairs hresults
    have hprimary : ∃ raw, primaryRawId r = some raw := by
      rw [extractToolResultId_eq] at hid
      obtain ⟨field, hfield, hread⟩ := exists_of_findSome?_eq_some hid
      have htruthy : truthy? field ≠ none := by
        intro hnone
        cases field with
        | none => cases hread
        | some text =>
          have hnil : text = [] := by
            by_contra hne
            rw [truthy?_some hne] at hnone
            cases hnone
          rw [hnil] at hread
          cases hread
      refine Option.isSome_iff_exists.mp (findSome?_isSome_iff.mpr ⟨field, ?_, ?_⟩)
      · simp only [ToolResultMessage.idFields, mem_cons, not_mem_nil, or_false] at hfield
        simp only [mem_cons, not_mem_nil, or_false]
        tauto
      · exact Option.isSome_iff_ne_none.mpr htruthy
    obtain ⟨raw, hraw⟩ := hprimary
    have hresolved : (resolveToolResultId mode raw (rewriteMessages mode messages).2).1 = next := by
      have hextract := extract_rewritten hraw (htext raw)
      exact Option.mem_unique hextract hnew
    have hmem : next ∈ newIds id (ledger (rewrittenPairs mode messages)) := by
      rw [hnews]
      exact mem_append_right _ (mem_of_getElem? hnext)
    have hretry' : (resolveToolResultId mode raw (rewriteMessages mode messages).2).2.exhausted = false := by
      have hstate : (rewriteMessage mode (.toolResult r) (rewriteMessages mode messages).2).2 =
          (resolveToolResultId mode raw (rewriteMessages mode messages).2).2 := by
        show (rewriteToolResultIds mode r _).2 = _
        rw [rewriteToolResultIds, hraw]
      rw [← hstate]
      exact hretry
    cases hpending : (newIds raw (ledger (rewrittenPairs mode messages)))[resultCount raw messages]? with
    | none =>
      refine absurd ?_ (resolveToolResultId_of_none haccounts hpending hretry')
      rw [hresolved]
      exact mem_map.mpr ⟨_, mem_newIds.mp hmem, rfl⟩
    | some first =>
      have hfirst : first = next := (resolveToolResultId_of_pending haccounts hpending).1.symm.trans hresolved
      subst hfirst
      obtain rfl : raw = id := raw_unique haccounts.nodup (mem_of_getElem? hpending) hmem
      -- One place in the queue, found from both sides.
      have hindex : resultCount raw messages =
          (newIds raw (ledger earlier)).length + resultCount raw (results.map (·.1)) := by
        have hplace : (newIds raw (ledger (rewrittenPairs mode messages)))[(newIds raw (ledger earlier)).length +
            resultCount raw (results.map (·.1))]? = some first := by
          rw [hnews, getElem?_append_right (Nat.le_add_right _ _), Nat.add_sub_cancel_left]
          exact hnext
        exact (List.getElem?_inj (List.getElem?_eq_some_iff.mp hpending).1 (nodup_newIds haccounts.nodup raw)).mp
          (hpending.trans hplace.symm)
      refine ⟨earlier.map (·.1), a, results.map (·.1), raw, hmessages, ?_, hid, hraw, by omega, ?_⟩
      · intro m hm
        obtain ⟨pair, hpair, rfl⟩ := mem_map.mp hm
        exact hresults pair hpair
      · have hlt := (List.getElem?_eq_some_iff.mp hnext).1
        rw [length_newIds] at hlt
        refine lt_of_lt_of_le hlt (List.Sublist.count_le _ ?_)
        have hsame : (callIds (.assistant a')).length = (callIds (.assistant a)).length := by
          refine @length_callIds_pairs α _ _ mode messages (.assistant a, .assistant a') ?_
          rw [hpairs]
          exact mem_append_right _ mem_cons_self
        rw [map_fst_zip hsame.ge]
  · intro hturn
    obtain ⟨id, next, hid, hprimary, hnext⟩ := @answered_index α _ _ mode messages r hturn
    obtain ⟨earlier, a, results, id', hmessages, hresults, hid', -, hearlier, -⟩ := hturn
    obtain rfl : id' = id := Option.mem_unique hid' hid
    have hfst := @map_fst_rewrittenPairs α _ _ mode messages
    rw [hmessages] at hfst
    obtain ⟨before, rest, hsplit, hbefore, hrest⟩ := map_eq_append_iff.mp hfst
    obtain ⟨⟨first, second⟩, after, rfl, hpair, hafter⟩ := map_eq_cons_iff.mp hrest
    rw [← hmessages] at hsplit
    obtain rfl : first = .assistant a := hpair
    obtain ⟨s, hs⟩ := @rewritten_of_mem α _ _ mode messages (.assistant a, second)
      (hsplit ▸ mem_append_right _ mem_cons_self)
    obtain ⟨a', heq, -⟩ := @rewriteMessage_assistant α _ _ mode a s
    obtain rfl : second = .assistant a' := hs.trans (congrArg Prod.fst heq)
    have hresults' : ∀ pair ∈ after, pair.1.isToolResult := by
      intro pair hpair
      exact hresults _ (hafter ▸ mem_map_of_mem hpair)
    obtain ⟨hnews, hlength, -, hcount⟩ := hqueue before a a' after id' hsplit hresults'
    rw [hbefore, hearlier] at hlength
    rw [hbefore, ← hlength] at hcount
    refine ⟨before, a, a', after, id', next, hsplit, hresults', hid, ?_, ?_⟩
    · rw [hnews, hcount, getElem?_append_right (Nat.le_add_right _ _), Nat.add_sub_cancel_left] at hnext
      exact hnext
    · rw [← (@resolveToolResultId_of_pending _ _ mode _ _ _ _ haccounts _ hnext).1]
      exact extract_rewritten hprimary (htext id')

theorem paired_iff (hretry : (rewriteMessages mode messages).2.exhausted = false) :
    Everywhere NamesItsCall (rewrittenPairs mode messages) ↔ Everywhere AnswersInTurn messages := by
  induction messages using reverseRecOn with
  | nil => exact iff_of_true (everywhere_nil _) (everywhere_nil _)
  | append_singleton messages message ih =>
    have hstep := hretry
    rw [rewriteMessages_concat] at hstep
    rw [rewrittenPairs_concat, everywhere_concat, everywhere_concat, ih (exhausted_of_message hstep)]
    refine and_congr_right fun hanswers => ?_
    cases message with
    | toolResult r => exact namesItsCall_iff hanswers hretry
    | assistant a =>
      obtain ⟨next, heq, -⟩ := @rewriteMessage_assistant α _ _ mode a (rewriteMessages mode messages).2
      rw [heq]
      exact Iff.rfl
    | other value => exact Iff.rfl

/-- The rewriting gives valid and unique ids and keeps calls and results paired, where results come in turn and no
native id is cut or taken; and it keeps them paired nowhere else. -/
theorem ids_rewritten (hretry : (rewriteMessages mode messages).2.exhausted = false) :
    ((mode = .strict → NativeIdsKept (messages.flatMap callIds)) ∧ Everywhere AnswersInTurn messages →
        IdsRewritten mode messages (sanitizeToolCallIdsForCloudCodeAssist mode messages)) ∧
      (IdsRewritten mode messages (sanitizeToolCallIdsForCloudCodeAssist mode messages) →
        Everywhere AnswersInTurn messages) := by
  constructor
  · rintro ⟨hkept, hanswers⟩
    have hsnd := map_snd_ledger fun pair hpair => @length_callIds_pairs α _ _ mode messages pair hpair
    rw [map_snd_rewrittenPairs] at hsnd
    refine ⟨?_, ?_, (paired_iff hretry).mpr hanswers⟩
    · intro m hm id hid
      have hmem : id ∈ (ledger (rewrittenPairs mode messages)).map (·.2) := by
        rw [hsnd]
        exact mem_flatMap.mpr ⟨m, hm, hid⟩
      obtain ⟨call, hcall, rfl⟩ := mem_map.mp hmem
      exact (natives_run hanswers hkept prefix_rfl hretry).valid call hcall
    · have hnodup := (accounts_run hanswers hretry).nodup
      rw [hsnd] at hnodup
      exact hnodup
  · intro h
    exact (paired_iff hretry).mp h.paired

end Runs

/-! ## Fixed transcripts -/

section Fixed

/-- No id of these transcripts is hashed. -/
@[reducible] def sameDigest : Digest where
  hexDigest _ := replicate 64 97
  length _ := length_replicate
  alphanumeric _ u hu := by
    rw [(mem_replicate.mp hu).2]
    decide

@[reducible] def stoppedClock : Clock where
  now := js "0"
  digits := by decide

attribute [local instance] sameDigest stoppedClock

def CALL_ID : JsString := js "call1"

def oneCall : Message Unit :=
  .assistant ⟨some [.object (some (js "toolCall")) (some CALL_ID) (some (js "read")) ()], some (js "toolUse"), ()⟩

def oneResult : ToolResultMessage Unit where
  toolCallId := some CALL_ID
  toolUseId := none
  tool_call_id := none
  tool_use_id := none
  callId := none
  call_id := none
  toolName := some (js "read")
  content := none
  openclawSyntheticMissingToolResult := false
  isError := false
  timestamp := none

/-- A call without a result, and a later one with the same id that has one. -/
def reusedTranscript : List (Message Unit) :=
  [oneCall, oneCall, .toolResult oneResult]

theorem reused_id_mispaired : Everywhere FollowsItsCall reusedTranscript ∧
    (rewriteMessages .strict reusedTranscript).2.exhausted = false ∧
    ¬ IdsRewritten .strict reusedTranscript
      (sanitizeToolCallIdsForCloudCodeAssist .strict reusedTranscript) := by
  have hretry : (rewriteMessages .strict reusedTranscript).2.exhausted = false := by decide
  refine ⟨?_, hretry, fun h => ?_⟩
  · refine everywhere_concat (l := [oneCall, oneCall]).mpr ⟨?_, [oneCall], _, [], CALL_ID, rfl, by simp, by decide,
      by decide⟩
    refine everywhere_concat (l := [oneCall]).mpr ⟨?_, trivial⟩
    exact everywhere_concat (l := []).mpr ⟨everywhere_nil _, trivial⟩
  · have hturn := (everywhere_concat (l := [oneCall, oneCall])).mp ((paired_iff hretry).mp h.paired)
    obtain ⟨earlier, a, results, id, hbefore, hresults, hid, -, hcount, -⟩ := hturn.2
    obtain rfl : CALL_ID = id := Option.some.inj ((by decide : some CALL_ID = extractToolResultId oneResult).trans hid)
    match earlier, hbefore with
    | [], hbefore =>
      obtain ⟨-, rfl⟩ := cons.inj hbefore
      exact absurd (hresults oneCall mem_cons_self) (by decide)
    | [first], hbefore =>
      obtain ⟨rfl, -⟩ := cons.inj hbefore
      exact absurd hcount (by decide)
    | first :: second :: earlier, hbefore =>
      obtain ⟨-, hrest⟩ := cons.inj hbefore
      obtain ⟨-, hnil⟩ := cons.inj hrest
      cases earlier <;> cases hnil

theorem ids_rewritten_answered : IdsRewritten .strict [oneCall, .toolResult oneResult]
    (sanitizeToolCallIdsForCloudCodeAssist .strict [oneCall, .toolResult oneResult]) := by
  refine (ids_rewritten (by decide)).1 ⟨fun _ => ?_, ?_⟩
  · intro before id hbefore hnative
    have hids : before ++ [id] <+: [CALL_ID] := hbefore
    have hnil : before = [] := by
      have hlength := hids.length_le
      rw [length_append, length_singleton, length_singleton] at hlength
      exact eq_nil_of_length_eq_zero (by omega)
    subst hnil
    obtain ⟨rfl, -⟩ := cons_prefix_cons.mp hids
    exact absurd hnative (by decide)
  · refine everywhere_concat (l := [oneCall]).mpr ⟨?_, [], _, [], CALL_ID, rfl, by simp, by decide, by decide,
    by decide,
      by decide⟩
    exact everywhere_concat (l := []).mpr ⟨everywhere_nil _, trivial⟩

end Fixed

end ClawWorks.Transcript
