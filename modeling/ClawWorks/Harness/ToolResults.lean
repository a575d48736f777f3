import ClawWorks.Harness.CompactionContext

/-!
# Tool results across a compaction

A model refuses a tool result without its tool call before it.
-/

namespace ClawWorks

open Except Option List

section Answered

variable {α κ : Type*}

def Answered (calls : α → κ → Prop) (answers : α → Option κ) (items : List α) : Prop :=
  ∀ (j : Nat) (item : α) (key : κ), items[j]? = some item → answers item = some key →
    ∃ i < j, ∃ call, items[i]? = some call ∧ calls call key

def Separates (calls : α → κ → Prop) (answers : α → Option κ) (items : List α) (cut : Nat) : Prop :=
  ∃ (i j : Nat) (call item : α) (key : κ), i < cut ∧ cut ≤ j ∧ items[i]? = some call ∧ calls call key ∧
    items[j]? = some item ∧ answers item = some key ∧
    ∀ k other, cut ≤ k → k < j → items[k]? = some other → ¬ calls other key

variable {calls : α → κ → Prop} {answers : α → Option κ} {items : List α}

theorem answered_drop_iff (h : Answered calls answers items) (cut : Nat) :
    Answered calls answers (items.drop cut) ↔ ¬ Separates calls answers items cut := by
  constructor
  · rintro hdrop ⟨i, j, call, item, key, hi, hj, -, -, hitem, hkey, hnone⟩
    have hitem' : (items.drop cut)[j - cut]? = some item := by
      rw [getElem?_drop, Nat.add_sub_cancel' hj, hitem]
    obtain ⟨k, hk, other, hother, hcalls⟩ := hdrop (j - cut) item key hitem' hkey
    rw [getElem?_drop] at hother
    exact hnone (cut + k) other (Nat.le_add_right ..) (by omega) hother hcalls
  · intro hcut j item key hitem hkey
    rw [getElem?_drop] at hitem
    obtain ⟨i, hi, call, hcall, hcalls⟩ := h (cut + j) item key hitem hkey
    by_contra hnone
    have hnoCall : ∀ k other, cut ≤ k → k < cut + j → items[k]? = some other → ¬ calls other key := by
      intro k other hfrom hto hother hcalls'
      refine hnone ⟨k - cut, by omega, other, ?_, hcalls'⟩
      rw [getElem?_drop, Nat.add_sub_cancel' hfrom, hother]
    have hbefore : i < cut := by
      by_contra hge
      exact hnoCall i call (Nat.le_of_not_lt hge) hi hcall hcalls
    exact hcut ⟨i, cut + j, call, item, key, hbefore, Nat.le_add_right .., hcall, hcalls, hitem, hkey, hnoCall⟩

theorem answered_concat {item : α} : Answered calls answers (items ++ [item]) ↔
      Answered calls answers items ∧ ∀ key, answers item = some key → ∃ call ∈ items, calls call key := by
  constructor
  · intro h
    refine ⟨fun j found key hfound hkey => ?_, fun key hkey => ?_⟩
    · have hlt := (List.getElem?_eq_some_iff.mp hfound).1
      obtain ⟨i, hi, call, hcall, hcalls⟩ := h j found key (by rw [List.getElem?_append_left hlt, hfound]) hkey
      rw [List.getElem?_append_left (hi.trans hlt)] at hcall
      exact ⟨i, hi, call, hcall, hcalls⟩
    · obtain ⟨i, hi, call, hcall, hcalls⟩ := h items.length item key (by simp) hkey
      rw [getElem?_append_left hi] at hcall
      exact ⟨call, mem_of_getElem? hcall, hcalls⟩
  · rintro ⟨hitems, hlast⟩ j found key hfound hkey
    rcases Nat.lt_or_ge j items.length with hlt | hge
    · rw [getElem?_append_left hlt] at hfound
      obtain ⟨i, hi, call, hcall, hcalls⟩ := hitems j found key hfound hkey
      exact ⟨i, hi, call, by rw [getElem?_append_left (hi.trans hlt), hcall], hcalls⟩
    · have hj : j = items.length := by
        have hbound := (List.getElem?_eq_some_iff.mp hfound).1
        rw [List.length_append, List.length_singleton] at hbound
        omega
      rw [hj, List.getElem?_append_right (Nat.le_refl _), Nat.sub_self, List.getElem?_cons_zero] at hfound
      obtain rfl := some.inj hfound
      obtain ⟨call, hmem, hcalls⟩ := hlast key hkey
      obtain ⟨i, hi⟩ := List.mem_iff_getElem?.mp hmem
      have hlt := (List.getElem?_eq_some_iff.mp hi).1
      exact ⟨i, hj ▸ hlt, call, by rw [List.getElem?_append_left hlt, hi], hcalls⟩

theorem answered_cons_idle {item : α} (hanswers : answers item = none) (hcalls : ∀ key, ¬ calls item key) :
    Answered calls answers (item :: items) ↔ Answered calls answers items := by
  constructor
  · intro h j found key hfound hkey
    obtain ⟨i, hi, call, hcall, hcallsKey⟩ := h (j + 1) found key hfound hkey
    cases i with
    | zero =>
      obtain rfl := some.inj hcall
      exact absurd hcallsKey (hcalls key)
    | succ i => exact ⟨i, Nat.lt_of_succ_lt_succ hi, call, hcall, hcallsKey⟩
  · intro h j found key hfound hkey
    cases j with
    | zero =>
      obtain rfl := some.inj hfound
      exact absurd (hkey.symm.trans hanswers) (some_ne_none key)
    | succ j =>
      obtain ⟨i, hi, call, hcall, hcallsKey⟩ := h j found key hfound hkey
      exact ⟨i + 1, Nat.succ_lt_succ hi, call, hcall, hcallsKey⟩

theorem separates_congr {cut cut' : Nat} (hle : cut ≤ cut')
    (hidle : ∀ k item, cut ≤ k → k < cut' → items[k]? = some item → answers item = none ∧ ∀ key, ¬ calls item key) :
    Separates calls answers items cut ↔ Separates calls answers items cut' := by
  constructor
  · rintro ⟨i, j, call, item, key, hi, hj, hcall, hcalls, hitem, hkey, hnone⟩
    have hafter : cut' ≤ j := by
      by_contra hlt
      exact some_ne_none key (hkey.symm.trans (hidle j item hj (Nat.lt_of_not_le hlt) hitem).1)
    exact ⟨i, j, call, item, key, hi.trans_le hle, hafter, hcall, hcalls, hitem, hkey,
      fun k other hfrom => hnone k other (hle.trans hfrom)⟩
  · rintro ⟨i, j, call, item, key, hi, hj, hcall, hcalls, hitem, hkey, hnone⟩
    have hbefore : i < cut := by
      by_contra hge
      exact (hidle i call (Nat.le_of_not_lt hge) hi hcall).2 key hcalls
    refine ⟨i, j, call, item, key, hbefore, hle.trans hj, hcall, hcalls, hitem, hkey, fun k other hfrom hto hother => ?_⟩
    rcases Nat.lt_or_ge k cut' with hlt | hge
    · exact (hidle k other hfrom hlt hother).2 key
    · exact hnone k other hge hto hother

end Answered

/-! ## Tool calls and their results -/

def AgentMessage.CallsTool (message : AgentMessage) (toolCallId : JsString) : Prop :=
  ∃ assistant, message = .assistant assistant ∧ ∃ name arguments, .toolCall toolCallId name arguments ∈ assistant.content

def AgentMessage.answeredCall? : AgentMessage → Option JsString
  | .toolResult toolCallId _ _ => some toolCallId
  | _ => none

/-- Every tool result comes after a message with its tool call. -/
def PairedMessages (messages : List AgentMessage) : Prop :=
  Answered AgentMessage.CallsTool AgentMessage.answeredCall? messages

def SessionTreeEntry.CallsTool (entry : SessionTreeEntry) (toolCallId : JsString) : Prop :=
  ∃ message, entry.message? = some message ∧ message.CallsTool toolCallId

open SessionTreeEntry

/-- The id of the call that a row's tool result answers. -/
def SessionTreeEntry.answeredCall? (entry : SessionTreeEntry) : Option JsString :=
  entry.message?.bind AgentMessage.answeredCall?

/-- Every tool result of a branch comes after an assistant message with its tool call, whatever rows are between. -/
def PairedRows (pathEntries : List SessionTreeEntry) : Prop :=
  Answered SessionTreeEntry.CallsTool SessionTreeEntry.answeredCall? pathEntries

def SeparatesToolResult (pathEntries : List SessionTreeEntry) (cut : Nat) : Prop :=
  Separates SessionTreeEntry.CallsTool SessionTreeEntry.answeredCall? pathEntries cut

section Messages

variable [DateParse] {entries : List SessionTreeEntry}

theorem contextMessage_cases {entry : SessionTreeEntry} {shown : Option AgentMessage}
    (h : contextMessage entry = .ok shown) :
    shown = entry.message? ∨ entry.message? = none ∧ ∀ message, shown = some message →
      (∀ toolCallId, ¬ message.CallsTool toolCallId) ∧ message.answeredCall? = none := by
  rw [contextMessage] at h
  rw [message?]
  cases hbody : entry.body with
  | message message =>
    rw [hbody] at h
    exact .inl (ok.inj h).symm
  | customMessage customType content display =>
    rw [hbody] at h
    refine .inr ⟨rfl, fun message hmessage => ?_⟩
    dsimp only at h
    rw [createCustomMessage, requireSessionTimestampMs] at h
    cases htime : parseSessionTimestampMs entry.timestamp with
    | none =>
      rw [htime] at h
      cases h
    | some time =>
      rw [htime, hmessage] at h
      obtain rfl := some.inj (ok.inj h)
      exact ⟨fun _ hcalls => by simp [AgentMessage.CallsTool] at hcalls, rfl⟩
  | branchSummary fromId summary =>
    rw [hbody] at h
    refine .inr ⟨rfl, fun message hmessage => ?_⟩
    dsimp only at h
    split at h
    · rw [createBranchSummaryMessage, requireSessionTimestampMs] at h
      cases htime : parseSessionTimestampMs entry.timestamp with
      | none =>
        rw [htime] at h
        cases h
      | some time =>
        rw [htime, hmessage] at h
        obtain rfl := some.inj (ok.inj h)
        exact ⟨fun _ hcalls => by simp [AgentMessage.CallsTool] at hcalls, rfl⟩
    · rw [hmessage] at h
      cases h
  | _ =>
    rw [hbody] at h
    exact .inl (ok.inj h).symm

theorem compactionMessage_idle {entry : SessionTreeEntry} {message : AgentMessage}
    (h : compactionMessage entry = .ok (some message)) :
    message.answeredCall? = none ∧ ∀ toolCallId, ¬ message.CallsTool toolCallId := by
  rw [compactionMessage] at h
  cases hbody : entry.body with
  | compaction summary firstKeptEntryId tokensBefore details fromHook =>
    rw [hbody] at h
    dsimp only at h
    rw [createCompactionSummaryMessage] at h
    cases htime : requireSessionTimestampMs entry.timestamp (js "compaction summary timestamp") with
    | error error =>
      rw [htime] at h
      cases h
    | ok time =>
      rw [htime] at h
      obtain rfl := some.inj (ok.inj h)
      exact ⟨rfl, fun _ hcalls => by simp [AgentMessage.CallsTool] at hcalls⟩
  | _ =>
    rw [hbody] at h
    cases h

theorem exists_callsTool_iff {messages : List AgentMessage} (h : contextMessages entries = .ok messages)
    (toolCallId : JsString) :
    (∃ call ∈ messages, call.CallsTool toolCallId) ↔ ∃ call ∈ entries, call.CallsTool toolCallId := by
  induction entries generalizing messages with
  | nil =>
    obtain rfl := ok.inj h
    simp
  | cons entry entries ih =>
    obtain ⟨shown, rest, hshown, hrest, rfl⟩ := collect_cons_eq_ok.mp h
    have hentry : (∃ call ∈ shown.toList, call.CallsTool toolCallId) ↔ entry.CallsTool toolCallId := by
      rcases contextMessage_cases hshown with rfl | ⟨hnone, hidle⟩
      · simp [SessionTreeEntry.CallsTool]
      · refine iff_of_false ?_ ?_
        · rintro ⟨call, hmem, hcalls⟩
          exact (hidle call (mem_toList.mp hmem)).1 _ hcalls
        · rintro ⟨message, hmessage, -⟩
          exact some_ne_none _ (hmessage.symm.trans hnone)
    simp only [mem_append, mem_cons, or_and_right, exists_or, exists_eq_left]
    rw [hentry, ih hrest]

theorem pairedMessages_iff {messages : List AgentMessage} (h : contextMessages entries = .ok messages) :
    PairedMessages messages ↔ PairedRows entries := by
  induction entries using reverseRecOn generalizing messages with
  | nil =>
    obtain rfl := ok.inj h
    exact iff_of_true (fun j item key hitem => (nomatch hitem)) fun j item key hitem => (nomatch hitem)
  | append_singleton entries entry ih =>
    obtain ⟨first, rest, hfirst, hrest, rfl⟩ := collect_append_eq_ok.mp h
    obtain ⟨shown, _, hshown, hnil, rfl⟩ := collect_cons_eq_ok.mp hrest
    obtain rfl := ok.inj hnil
    rw [append_nil, PairedRows, answered_concat, ← PairedRows, ← ih hfirst]
    rcases contextMessage_cases hshown with rfl | ⟨hnone, hidle⟩
    · rw [answeredCall?]
      cases entry.message? with
      | none =>
        rw [toList_none, append_nil]
        exact ⟨fun hfirst => ⟨hfirst, fun key hkey => (nomatch hkey)⟩, fun hboth => hboth.1⟩
      | some message =>
        rw [toList_some, PairedMessages, answered_concat, ← PairedMessages]
        exact and_congr_right fun _ => forall₂_congr fun key _ => exists_callsTool_iff hfirst key
    · have hanswers : entry.answeredCall? = none := by rw [answeredCall?, hnone]; rfl
      rw [hanswers]
      have hrow : (∀ key, (none : Option JsString) = some key → ∃ call ∈ entries, call.CallsTool key) :=
        fun key hkey => (nomatch hkey)
      rw [and_iff_left hrow]
      cases shown with
      | none => rw [toList_none, append_nil]
      | some message =>
        rw [toList_some, PairedMessages, answered_concat, (hidle message rfl).2, ← PairedMessages]
        exact and_iff_left fun key hkey => (nomatch hkey)

end Messages

/-! ## Where the budget cuts -/

section CutAt

variable {ν : Type} [JsArithmetic ν] {pathEntries : List SessionTreeEntry} {startIndex : Nat} {keepRecentTokens : ν}

def tokensFrom (pathEntries : List SessionTreeEntry) (index : Nat) : Nat :=
  (((pathEntries.drop index).filterMap SessionTreeEntry.message?).map estimateTokens).sum

/-- The budget is used up at a message: from it on the messages have as many tokens. -/
def ReachesBudget (pathEntries : List SessionTreeEntry) (startIndex : Nat) (keepRecentTokens : ν)
    (index : Nat) : Prop :=
  startIndex ≤ index ∧ (pathEntries[index]?.bind SessionTreeEntry.message?) ≠ none ∧
    JsArithmetic.le keepRecentTokens (JsArithmetic.ofNat (tokensFrom pathEntries index)) = true

/-- The message where the budget is used up, from the end of the branch. -/
def BudgetAt (pathEntries : List SessionTreeEntry) (startIndex : Nat) (keepRecentTokens : ν) (index : Nat) : Prop :=
  ReachesBudget pathEntries startIndex keepRecentTokens index ∧
    ∀ later, index < later → ¬ ReachesBudget pathEntries startIndex keepRecentTokens later

/-- A row at which a context may begin. -/
def EligibleAt (pathEntries : List SessionTreeEntry) (startIndex index : Nat) : Prop :=
  startIndex ≤ index ∧ pathEntries[index]?.any isCutPoint = true

/-- **Where the budget cuts a branch.** -/
inductive CutAt (pathEntries : List SessionTreeEntry) (startIndex : Nat) (keepRecentTokens : ν) (cut : Nat) : Prop where
  /-- Nothing is eligible: all rows are kept. -/
  | none (hnone : ∀ i, ¬ EligibleAt pathEntries startIndex i) (hcut : cut = startIndex)
  /-- The budget is not used up: the first eligible row. -/
  | first (hbudget : ∀ i, ¬ ReachesBudget pathEntries startIndex keepRecentTokens i)
      (hcut : EligibleAt pathEntries startIndex cut) (hfirst : ∀ i < cut, ¬ EligibleAt pathEntries startIndex i)
  /-- The first eligible row from where it is used up. -/
  | next (budget : Nat) (hbudget : BudgetAt pathEntries startIndex keepRecentTokens budget) (hle : budget ≤ cut)
      (hcut : EligibleAt pathEntries startIndex cut)
      (hnext : ∀ i, budget ≤ i → i < cut → ¬ EligibleAt pathEntries startIndex i)
  /-- There is none from there on: the last eligible row. -/
  | last (budget : Nat) (hbudget : BudgetAt pathEntries startIndex keepRecentTokens budget)
      (hcut : EligibleAt pathEntries startIndex cut)
      (hnone : ∀ i, budget ≤ i → ¬ EligibleAt pathEntries startIndex i)
      (hlast : ∀ i, cut < i → ¬ EligibleAt pathEntries startIndex i)

theorem BudgetAt.unique {i j : Nat} (hi : BudgetAt pathEntries startIndex keepRecentTokens i)
    (hj : BudgetAt pathEntries startIndex keepRecentTokens j) : i = j := by
  rcases Nat.lt_trichotomy i j with hlt | heq | hlt
  · exact absurd hj.1 (hi.2 j hlt)
  · exact heq
  · exact absurd hi.1 (hj.2 i hlt)

theorem CutAt.le {cut cut' : Nat} (h : CutAt pathEntries startIndex keepRecentTokens cut)
    (h' : CutAt pathEntries startIndex keepRecentTokens cut') : cut ≤ cut' := by
  by_contra hgt
  have hlt := Nat.lt_of_not_le hgt
  cases h with
  | none hnone hcut =>
    cases h' with
    | none _ hcut' => exact hlt.ne (hcut'.trans hcut.symm)
    | first _ heligible _ | next _ _ _ heligible _ | last _ _ heligible _ _ => exact hnone _ heligible
  | first hbudget hcut hfirst =>
    cases h' with
    | none hnone _ => exact hnone _ hcut
    | first _ heligible _ => exact hfirst _ hlt heligible
    | next _ hbudget' _ _ _ | last _ hbudget' _ _ _ => exact hbudget _ hbudget'.1
  | next budget hbudget hle hcut hnext =>
    cases h' with
    | none hnone _ => exact hnone _ hcut
    | first hbudget' _ _ => exact hbudget' _ hbudget.1
    | next _ hbudget' hle' heligible _ =>
      obtain rfl := hbudget.unique hbudget'
      exact hnext _ hle' hlt heligible
    | last _ hbudget' _ hnone _ =>
      obtain rfl := hbudget.unique hbudget'
      exact hnone _ hle hcut
  | last budget hbudget hcut hnone hlast =>
    cases h' with
    | none hnone' _ => exact hnone' _ hcut
    | first hbudget' _ _ => exact hbudget' _ hbudget.1
    | next _ hbudget' hle' heligible _ =>
      obtain rfl := hbudget.unique hbudget'
      exact hnone _ hle' heligible
    | last _ _ _ _ hlast' => exact hlast' _ hlt hcut

theorem CutAt.unique {cut cut' : Nat} (h : CutAt pathEntries startIndex keepRecentTokens cut)
    (h' : CutAt pathEntries startIndex keepRecentTokens cut') : cut = cut' :=
  Nat.le_antisymm (h.le h') (h'.le h)

theorem tokensFrom_eq {index : Nat} (hlt : index < pathEntries.length) : tokensFrom pathEntries index =
      tokensFrom pathEntries (index + 1) + ((pathEntries[index].message?).map estimateTokens).getD 0 := by
  rw [tokensFrom, tokensFrom, drop_eq_getElem_cons hlt, filterMap_cons]
  cases (pathEntries[index]).message? with
  | none => rfl
  | some message =>
    rw [map_cons, sum_cons, map_some, getD_some]
    exact Nat.add_comm ..

/-- What a search for the message where the budget is used up says. -/
def BudgetFound (pathEntries : List SessionTreeEntry) (startIndex : Nat) (keepRecentTokens : ν) : Option Nat → Prop
  | none => ∀ i, ¬ ReachesBudget pathEntries startIndex keepRecentTokens i
  | some i => BudgetAt pathEntries startIndex keepRecentTokens i

/-- **The loop from the end finds where the budget is used up**: the tokens it has accumulated are those of the rows it
has passed. -/
theorem findBudgetIndex_spec (remaining accumulatedTokens : Nat) (hlength : startIndex + remaining ≤ pathEntries.length)
    (htokens : accumulatedTokens = tokensFrom pathEntries (startIndex + remaining))
    (hlater : ∀ later, startIndex + remaining ≤ later → ¬ ReachesBudget pathEntries startIndex keepRecentTokens later) :
    BudgetFound pathEntries startIndex keepRecentTokens
      (findBudgetIndex pathEntries startIndex keepRecentTokens remaining accumulatedTokens) := by
  induction remaining generalizing accumulatedTokens with
  | zero => exact fun i hreaches => hlater i hreaches.1 hreaches
  | succ remaining ih =>
    have hlt : startIndex + remaining < pathEntries.length := by omega
    have htotal := tokensFrom_eq hlt
    have hnext : ∀ later, startIndex + remaining < later →
        ¬ ReachesBudget pathEntries startIndex keepRecentTokens later := fun later hlt => hlater later hlt
    rw [findBudgetIndex, getElem?_eq_getElem hlt, bind_some]
    cases hmessage : (pathEntries[startIndex + remaining]).message? with
    | none =>
      rw [hmessage, map_none, getD_none, Nat.add_zero] at htotal
      refine ih accumulatedTokens hlt.le (htokens.trans htotal.symm) fun later hle => ?_
      rcases Nat.lt_or_eq_of_le hle with hlt' | rfl
      · exact hnext later hlt'
      · exact fun hreaches => hreaches.2.1 (by rw [getElem?_eq_getElem hlt, bind_some, hmessage])
    | some message =>
      rw [hmessage, map_some, getD_some] at htotal
      have hsum : accumulatedTokens + estimateTokens message = tokensFrom pathEntries (startIndex + remaining) := by
        rw [htokens, htotal]
        rfl
      dsimp only
      by_cases hreached : JsArithmetic.le keepRecentTokens
          (JsArithmetic.ofNat (accumulatedTokens + estimateTokens message))
      · rw [if_pos hreached]
        refine ⟨⟨Nat.le_add_right .., ?_, hsum ▸ hreached⟩, hnext⟩
        rw [getElem?_eq_getElem hlt, bind_some, hmessage]
        exact some_ne_none message
      · rw [if_neg hreached]
        refine ih _ hlt.le hsum fun later hle => ?_
        rcases Nat.lt_or_eq_of_le hle with hlt' | rfl
        · exact hnext later hlt'
        · exact fun hreaches => hreached (hsum ▸ hreaches.2.2)

theorem findBudgetIndex_found (hstart : startIndex ≤ pathEntries.length) (keepRecentTokens : ν) :
    BudgetFound pathEntries startIndex keepRecentTokens
      (findBudgetIndex pathEntries startIndex keepRecentTokens (pathEntries.length - startIndex) 0) := by
  have hend : startIndex + (pathEntries.length - startIndex) = pathEntries.length := by omega
  refine findBudgetIndex_spec _ _ hend.le ?_ fun later hle hreaches => ?_
  · rw [hend, tokensFrom, drop_length]
    rfl
  · exact hreaches.2.1 (by rw [getElem?_eq_none (hend ▸ hle)]; rfl)

theorem eligibleAt_iff_mem {i : Nat} :
    EligibleAt pathEntries startIndex i ↔ i ∈ findValidCutPoints pathEntries startIndex pathEntries.length := by
  rw [mem_findValidCutPoints]
  constructor
  · rintro ⟨hstart, hcut⟩
    refine ⟨hstart, ?_, hcut⟩
    by_contra hge
    rw [getElem?_eq_none (Nat.le_of_not_lt hge)] at hcut
    cases hcut
  · exact fun ⟨hstart, _, hcut⟩ => ⟨hstart, hcut⟩

theorem findValidCutPoints_pairwise (pathEntries : List SessionTreeEntry) (startIndex endIndex : Nat) :
    (findValidCutPoints pathEntries startIndex endIndex).Pairwise (· < ·) :=
  List.Pairwise.filter _ pairwise_lt_range'

/-- **What `findCutPoint` chooses is where the budget cuts.** -/
theorem cutAt_chosen (hstart : startIndex ≤ pathEntries.length) {first : Nat} {rest : List Nat}
    (hpoints : findValidCutPoints pathEntries startIndex pathEntries.length = first :: rest) :
    CutAt pathEntries startIndex keepRecentTokens
      (chosenCutPoint pathEntries startIndex keepRecentTokens first rest) := by
  have hsorted := findValidCutPoints_pairwise pathEntries startIndex pathEntries.length
  have heligible : ∀ i, EligibleAt pathEntries startIndex i ↔ i ∈ first :: rest := fun i => hpoints ▸ eligibleAt_iff_mem
  have hchosen : EligibleAt pathEntries startIndex
      (chosenCutPoint pathEntries startIndex keepRecentTokens first rest) := (heligible _).mpr chosenCutPoint_mem
  have hbudget := findBudgetIndex_found hstart keepRecentTokens
  rw [hpoints] at hsorted
  rw [chosenCutPoint] at hchosen ⊢
  cases hfound : findBudgetIndex pathEntries startIndex keepRecentTokens (pathEntries.length - startIndex) 0 with
  | none =>
    rw [hfound] at hbudget hchosen
    dsimp only at hchosen ⊢
    refine .first hbudget hchosen fun i hi hmem => ?_
    rcases mem_cons.mp ((heligible i).mp hmem) with rfl | hmem
    · exact lt_irrefl _ hi
    · exact lt_asymm hi (rel_of_pairwise_cons hsorted hmem)
  | some budget =>
    rw [hfound] at hbudget hchosen
    dsimp only at hchosen ⊢
    cases hfind : (first :: rest).find? (budget ≤ ·) with
    | some cutPoint =>
      rw [hfind] at hchosen
      rw [getD_some] at hchosen ⊢
      obtain ⟨hle, before, after, hsplit, hbefore⟩ := find?_eq_some_iff_append.mp hfind
      refine .next budget hbudget (of_decide_eq_true hle) hchosen fun i hi hlt hmem => ?_
      rw [heligible, hsplit] at hmem
      rw [hsplit] at hsorted
      rcases mem_append.mp hmem with hmem | hmem
      · have hnot := hbefore i hmem
        rw [Bool.not_eq_true', decide_eq_false_iff_not] at hnot
        exact hnot hi
      · rcases mem_cons.mp hmem with rfl | hmem
        · exact lt_irrefl _ hlt
        · exact lt_asymm hlt (rel_of_pairwise_cons (pairwise_append.mp hsorted).2.1 hmem)
    | none =>
      rw [hfind] at hchosen
      rw [getD_none] at hchosen ⊢
      refine .last budget hbudget hchosen (fun i hi hmem => ?_) fun i hi hmem => ?_
      · have hnot := find?_eq_none.mp hfind i ((heligible i).mp hmem)
        exact hnot (decide_eq_true hi)
      · rw [heligible] at hmem
        have hlast : (first :: rest) = (first :: rest).dropLast ++ [(first :: rest).getLastD first] := by
          rw [getLastD_eq_getLast?, getLast?_eq_getLast_of_ne_nil (cons_ne_nil _ _), getD_some,
            dropLast_append_getLast]
        rw [hlast] at hmem hsorted
        rcases mem_append.mp hmem with hmem | hmem
        · exact lt_asymm hi ((pairwise_append.mp hsorted).2.2 i hmem _ (mem_singleton_self _))
        · exact hi.ne (mem_singleton.mp hmem).symm

theorem separatesToolResult_preparedCut (hstart : boundaryStart pathEntries ≤ pathEntries.length)
    (keepRecentTokens : ν) :
    ∃ cut, CutAt pathEntries (boundaryStart pathEntries) keepRecentTokens cut ∧
      (SeparatesToolResult pathEntries (preparedCut pathEntries keepRecentTokens).firstKeptEntryIndex ↔
        SeparatesToolResult pathEntries cut) := by
  rw [preparedCut, findCutPoint]
  split
  · rename_i hpoints
    refine ⟨boundaryStart pathEntries, .none (fun i hi => ?_) rfl, Iff.rfl⟩
    have hmem := eligibleAt_iff_mem.mp hi
    rw [hpoints] at hmem
    cases hmem
  · rename_i first rest hpoints
    refine ⟨_, cutAt_chosen hstart hpoints, separates_congr walkBack_le fun k row hfrom hto hrow => ?_⟩
    have hpassed := walkBack_passes hfrom hto
    rw [hrow, any_some, decide_eq_false_iff_not, not_or, Bool.not_eq_true, not_isSome_iff_eq_none]
      at hpassed
    refine ⟨by rw [answeredCall?, hpassed.2]; rfl, fun key hcalls => ?_⟩
    obtain ⟨message, hmessage, -⟩ := hcalls
    exact some_ne_none _ (hmessage.symm.trans hpassed.2)

variable [DateParse] {settings : CompactionSettings ν} {preparation : CompactionPreparation ν}

/-- **A compaction keeps every tool result with its call, unless the budget cuts between the two.** In the context that
is rebuilt after the compaction that `prepareCompaction` computed, every tool result has its call before it exactly when
the row the budget cuts at does not lie between a call and its result. -/
theorem compaction_keeps_tool_results_iff (hpath : SessionPath pathEntries) (hpaired : PairedRows pathEntries)
    (hprepare : prepareCompaction pathEntries settings = .ok (.ok (some preparation))) {entry : SessionTreeEntry}
    (hfresh : entry.id ∉ pathEntries.map SessionTreeEntry.id)
    (hbody : firstKeptEntryId? entry = some preparation.firstKeptEntryId)
    (htimestamp : parseSessionTimestampMs entry.timestamp ≠ none) :
    ∃ context, buildSessionContext (pathEntries ++ [entry]) = .ok context ∧
      (PairedMessages context.messages ↔
        ¬ ∃ cut, CutAt pathEntries (boundaryStart pathEntries) settings.keepRecentTokens cut ∧
          SeparatesToolResult pathEntries cut) := by
  have hprepared := prepareCompaction_eq_ok hprepare
  have hentry : StoresCompaction pathEntries (preparedCut pathEntries settings.keepRecentTokens).firstKeptEntryIndex
      entry := ⟨hfresh, ⟨_, hbody, hprepared.firstKept⟩, htimestamp⟩
  obtain ⟨_, _, _, _, hparts⟩ := hprepared.contextParts hpath none hentry
  obtain ⟨context, -, hcontext, -, -⟩ := hparts.after
  obtain ⟨summary, shown, hsummary, hshown, hmessages⟩ :=
    (hentry.buildSessionContext_messages hpath).mp ⟨context, hcontext, rfl⟩
  refine ⟨context, hcontext, ?_⟩
  have hkept : PairedMessages context.messages ↔ PairedMessages shown := by
    rw [hmessages]
    cases summary with
    | none => rfl
    | some message =>
      obtain ⟨hanswers, hcalls⟩ := compactionMessage_idle hsummary
      exact answered_cons_idle hanswers hcalls
  obtain ⟨cut, hcut, hseparates⟩ := separatesToolResult_preparedCut (hpath.boundaryStart_lt hprepared.nonempty).le
    settings.keepRecentTokens
  rw [hkept, pairedMessages_iff hshown, PairedRows, answered_drop_iff hpaired, ← SeparatesToolResult, hseparates,
    not_iff_not]
  constructor
  · exact fun hlost => ⟨cut, hcut, hlost⟩
  · rintro ⟨cut', hcut', hlost⟩
    exact hcut.unique hcut' ▸ hlost

end CutAt

/-! ## A message between a call and its result -/

section Steered

attribute [local instance] newYear

def steeredToolCall : List SessionTreeEntry :=
  [rowAt (js "u") (.message (.user (.string (js "list the files")))), rowAt (js "a") (.message (.assistant
      ⟨[.toolCall (js "t") (js "bash") ⟨js "\x7b\x7d", none⟩], js "p", js "m", none, js "toolUse"⟩)),
    rowAt (js "m") (.customMessage (js "note") (.string (js "hurry")) true),
    rowAt (js "r") (.message (.toolResult (js "t") (js "bash") [.text (js "README.md")]))]

/-- What is prepared: the context is kept from the extension's message on. -/
def steeredPreparation : CompactionPreparation ℚ where
  firstKeptEntryId := js "m"
  messagesToSummarize := [.user (.string (js "list the files")),
    .assistant ⟨[.toolCall (js "t") (js "bash") ⟨js "\x7b\x7d", none⟩], js "p", js "m", none, js "toolUse"⟩]
  turnPrefixMessages := []
  isSplitTurn := true
  tokensBefore := 11
  previousSummary := none
  fileOps := {}
  settings := oneToken

theorem steered_prepared : prepareCompaction steeredToolCall oneToken = .ok (.ok (some steeredPreparation)) :=
  rfl

theorem steered_sessionPath : SessionPath steeredToolCall := by
  refine ⟨by decide, fun index compaction firstKeptEntryId hget hfirst => ?_⟩
  match index with
  | 0 | 1 | 2 | 3 =>
    obtain rfl := some.inj hget
    cases hfirst
  | _ + 4 => cases hget

theorem steered_paired : PairedRows steeredToolCall := by
  intro j item key hitem hkey
  match j with
  | 0 | 1 | 2 =>
    obtain rfl := some.inj hitem
    cases hkey
  | 3 =>
    obtain rfl := some.inj hitem
    obtain rfl := some.inj hkey
    exact ⟨1, by decide, _, rfl, _, rfl, _, rfl, _, _, mem_cons_self⟩
  | _ + 4 => cases hitem

/-- The row that stores the compaction. -/
def steeredCompaction : SessionTreeEntry :=
  rowAt (js "d") (.compaction (js "so far") (js "m") 11 none false)

theorem steered_keeps_tool_results_iff :
    ∃ context, buildSessionContext (steeredToolCall ++ [steeredCompaction]) = .ok context ∧
      (PairedMessages context.messages ↔
        ¬ ∃ cut, CutAt steeredToolCall (boundaryStart steeredToolCall) (1 : ℚ) cut ∧
          SeparatesToolResult steeredToolCall cut) :=
  compaction_keeps_tool_results_iff steered_sessionPath steered_paired steered_prepared (by decide) rfl (by decide)

/-- The context begins with the extension's message, and the result after it has no call. -/
theorem steered_result_orphaned :
    ¬ ∀ (pathEntries : List SessionTreeEntry) (settings : CompactionSettings ℚ)
      (preparation : CompactionPreparation ℚ) (entry : SessionTreeEntry) (context : SessionContext),
      SessionPath pathEntries → PairedRows pathEntries →
      prepareCompaction pathEntries settings = .ok (.ok (some preparation)) →
      entry.id ∉ pathEntries.map SessionTreeEntry.id →
      firstKeptEntryId? entry = some preparation.firstKeptEntryId →
      parseSessionTimestampMs entry.timestamp ≠ none →
      buildSessionContext (pathEntries ++ [entry]) = .ok context → PairedMessages context.messages := by
  intro h
  have hpaired := h _ _ _ steeredCompaction _ steered_sessionPath steered_paired steered_prepared (by decide) rfl
    (by decide) rfl
  obtain ⟨i, hi, call, hcall, assistant, hassistant, -⟩ := hpaired 2 _ (js "t") rfl rfl
  match i with
  | 0 | 1 =>
    obtain rfl := some.inj hcall
    cases hassistant
  | _ + 2 => exact absurd hi (by omega)

end Steered

end ClawWorks
